import Folio.Proofs.Collection.Stored
import Folio.Store.View

/-!
# Stores that represent a catalogue

A store represents a catalogue when the document of every id that is bound stands
under its key in stored form, nothing is alive under the other keys of the
collection, and the view of all documents is declared.  Documents of other
collections, and whatever else the store holds, do not matter.
-/

namespace Folio.Collection

/-- What is alive under the keys of a collection is what its catalogue binds. -/
structure Mirrors (config : CollectionConfig) (store : Store) (catalogue : Catalogue) : Prop where
  bound {id : String} {members : Fields Json} : catalogue.lookUp? id = some members →
    Plain members ∧ ∃ revision, store.current? (config.privateId id) =
      some (.object (stored config id members revision))
  unbound {id : String} : catalogue.lookUp? id = none → store.live? (config.privateId id) = none

/-- The design document of a collection in its stored form. -/
def declaration (collection : Collection) (revision : String) : Json :=
  .object (collection.design ++
    [(idMember, .string collection.config.designId), (revisionMember, .string revision)])

/-- A store mirrors a catalogue and declares the view of all documents. -/
structure Represents (collection : Collection) (store : Store) (catalogue : Catalogue) : Prop where
  mirrors : Mirrors collection.config store catalogue
  declared : ∃ revision, store.current? collection.config.designId =
    some (collection.declaration revision)

section Mirrors

variable {config : CollectionConfig} {store : Store} {catalogue : Catalogue}

theorem mirrors_empty (config : CollectionConfig) :
    Mirrors config Store.empty Catalogue.empty where
  bound found := by simp at found
  unbound _ := rfl

/-- The document of an id that is bound is alive. -/
theorem Mirrors.live?_eq_some (mirrors : Mirrors config store catalogue) {id : String}
    {members : Fields Json} (found : catalogue.lookUp? id = some members) :
    ∃ revision, store.live? (config.privateId id) =
      some (.object (stored config id members revision)) := by
  rcases mirrors.bound found with ⟨plain, revision, current⟩
  exact ⟨revision, Store.live?_eq_some_iff.mpr ⟨current, isDeleted_stored plain⟩⟩

/-- What is alive under a key of the collection carries a text as its revision. -/
theorem Mirrors.revision_of_live (mirrors : Mirrors config store catalogue) {id : String}
    {document : Json} (alive : store.live? (config.privateId id) = some document) :
    ∃ revision, document.member? revisionMember = some (.string revision) := by
  cases found : catalogue.lookUp? id with
  | none =>
      rw [mirrors.unbound found] at alive
      contradiction
  | some members =>
      rcases mirrors.live?_eq_some found with ⟨revision, here⟩
      rw [here, Option.some.injEq] at alive
      refine ⟨revision, ?_⟩
      rw [← alive]
      exact revision_stored (mirrors.bound found).1

/-- A catalogue is mirrored by every store with the same documents under the keys
of the collection. -/
theorem Mirrors.congr (mirrors : Mirrors config store catalogue) {other : Store}
    (same : ∀ id, other.current? (config.privateId id) = store.current? (config.privateId id)) :
    Mirrors config other catalogue where
  bound found := by
    rw [same]
    exact mirrors.bound found
  unbound found := by
    rw [Store.live?_congr (same _)]
    exact mirrors.unbound found

/-- Storing a document binds its id. -/
theorem Mirrors.place_stored (mirrors : Mirrors config store catalogue) {id : String}
    {members : Fields Json} (plain : Plain members) (revision : String) :
    Mirrors config (store.place (config.privateId id) (.object (stored config id members revision)))
      (catalogue.bind id members) where
  bound {other found} lookedUp := by
    rw [Catalogue.lookUp?_bind] at lookedUp
    split at lookedUp
    · rename_i same
      cases lookedUp
      rw [same, Store.current?_place_self]
      exact ⟨plain, revision, rfl⟩
    · rename_i different
      rw [Store.current?_place_of_ne (config.privateId_injective.ne different)]
      exact mirrors.bound lookedUp
  unbound {other} lookedUp := by
    rw [Catalogue.lookUp?_bind] at lookedUp
    split at lookedUp
    · contradiction
    · rename_i different
      rw [Store.live?_congr (Store.current?_place_of_ne
        (config.privateId_injective.ne different) _)]
      exact mirrors.unbound lookedUp

/-- Storing a tombstone takes the binding of its id away. -/
theorem Mirrors.place_deleted (mirrors : Mirrors config store catalogue) {id : String}
    {document : Json} (deleted : document.isDeleted = true) :
    Mirrors config (store.place (config.privateId id) document) (catalogue.unbind id) where
  bound {other found} lookedUp := by
    rw [Catalogue.lookUp?_unbind] at lookedUp
    split at lookedUp
    · contradiction
    · rename_i different
      rw [Store.current?_place_of_ne (config.privateId_injective.ne different)]
      exact mirrors.bound lookedUp
  unbound {other} lookedUp := by
    by_cases same : other = id
    · simp [same, Store.live?, deleted]
    · rw [Catalogue.lookUp?_unbind, if_neg same] at lookedUp
      rw [Store.live?_congr (Store.current?_place_of_ne
        (config.privateId_injective.ne same) _)]
      exact mirrors.unbound lookedUp

theorem Mirrors.place_design (mirrors : Mirrors config store catalogue) (document : Json) :
    Mirrors config (store.place config.designId document) catalogue :=
  mirrors.congr fun id => Store.current?_place_of_ne (config.privateId_ne_designId id) document

end Mirrors

section Represents

variable {collection : Collection} {store : Store} {catalogue : Catalogue}

theorem isDeleted_declaration (collection : Collection) (revision : String) :
    (collection.declaration revision).isDeleted = false := by
  simp [declaration, design, Json.isDeleted, Json.member?, Fields.get?, idMember, revisionMember,
    deletedMember]

/-- A document under a key of the collection is not in the way of the design
document. -/
theorem Represents.place (represents : Represents collection store catalogue) {id : String}
    {document : Json} {next : Catalogue}
    (mirrors : Mirrors collection.config
      (store.place (collection.config.privateId id) document) next) :
    Represents collection (store.place (collection.config.privateId id) document) next where
  mirrors := mirrors
  declared := by
    rw [Store.current?_place_of_ne (collection.config.privateId_ne_designId id).symm]
    exact represents.declared

/-- Where a design document keeps the text with which the keys of the view of all documents
start. -/
theorem pointerSteps_findAll :
    Json.pointerSteps ("views/".toList ++ findAllView.toList ++ "/prefix".toList) =
      ["views", "findAll", "prefix"] := by decide

/-- Where the design document is, the view of all documents is answered with the rows
behind its keys. -/
theorem view_findAll_of_declared {revision : String}
    (declared : store.current? collection.config.designId = some (collection.declaration revision))
    (options : ViewOptions) :
    store.view collection.config.name findAllView options =
      .ok (store.rowsFrom collection.config.keyStart options) := by
  have alive : store.live? (designKey collection.config.name) =
      some (collection.declaration revision) :=
    Store.live?_eq_some_iff.mpr ⟨declared, isDeleted_declaration collection revision⟩
  have start : (collection.declaration revision).viewStart? findAllView =
      some collection.config.keyStart := by
    rw [Json.viewStart?, pointerSteps_findAll]
    rfl
  simp only [Store.view, alive, start]

end Represents

end Folio.Collection

import Folio.Proofs.Collection.Refinement

/-!
# Operations over a store that finds nothing

A forgetful store takes writes and shows its views as the store in it does, but finds no
document under its key.  An operation that looks a document up in vain, because there is
none or because the call is made to say so, goes on as over a forgetful store.
-/

namespace Folio

/-- A store whose documents are not found under their keys. -/
structure Forgetful (σ : Type) where
  store : σ

instance {σ : Type} [DocumentStore σ] : DocumentStore (Forgetful σ) where
  get forgetful key := (.error (.notFound key), forgetful)
  insert forgetful document key :=
    let (answer, store) := DocumentStore.insert forgetful.store document key
    (answer, ⟨store⟩)
  view forgetful collection name options :=
    let (answer, store) := DocumentStore.view forgetful.store collection name options
    (answer, ⟨store⟩)

/-- A desk whose store is forgetful, and has no use for a fault from looking a document up. -/
def Desk.forgetful (desk : Desk FaultyStore) : Desk (Forgetful FaultyStore) where
  store := ⟨{ desk.store with pending.get := none }⟩
  minted := desk.minted

namespace Session

variable {α β : Type} {desk : Desk FaultyStore}

/-- Over a forgetful store a session comes to the same end. -/
def Same (desk : Desk FaultyStore) (blind : Session (Forgetful FaultyStore) α)
    (session : Session FaultyStore α) : Prop :=
  blind.run desk.forgetful = ((session.run desk).1, (session.run desk).2.forgetful)

theorem same_pure (value : α) : Same desk (pure value) (pure value) := rfl

theorem same_refuse (error : QueryError) : Same desk (refuse error : Session _ α) (refuse error) :=
  rfl

theorem same_mintId (mint : Nat → Json → String) (document : Json) :
    Same desk (mintId mint document) (mintId mint document) :=
  rfl

theorem Same.bind {blind : Session (Forgetful FaultyStore) α} {session : Session FaultyStore α}
    {rest : α → Session (Forgetful FaultyStore) β} {rest' : α → Session FaultyStore β}
    (first : Same desk blind session)
    (next : ∀ value after, Same after (rest value) (rest' value)) :
    Same desk (blind >>= rest) (session >>= rest') := by
  rw [Same, run_bind, run_bind, first]
  rcases outcome : session.run desk with ⟨error | value, after⟩
  · rfl
  · exact next value after

theorem same_write (document : Json) (key : String) :
    Same desk (write document key) (write document key) := by
  rcases desk with ⟨⟨store, getFault, insertFault, viewFault, rows⟩, minted⟩
  change write document key _ = ((write document key _).1, (write document key _).2.forgetful)
  simp only [write, DocumentStore.insert, Desk.forgetful]
  cases insertFault with
  | some error => rfl
  | none => cases store.insert document key <;> rfl

theorem same_rows (collection view : String) (options : ViewOptions) :
    Same desk (rows collection view options) (rows collection view options) := by
  rcases desk with ⟨⟨store, getFault, insertFault, viewFault, given⟩, minted⟩
  change rows collection view options _ =
    ((rows collection view options _).1, (rows collection view options _).2.forgetful)
  simp only [rows, DocumentStore.view, Desk.forgetful]
  cases viewFault with
  | some error => rfl
  | none =>
      cases given with
      | some rows => rfl
      | none => cases store.view collection view options <;> rfl

theorem same_wanted (query : Query) :
    Same desk (Collection.wanted query) (Collection.wanted query) := by
  rw [Same, run_wanted, run_wanted]
  split <;> rfl

/-- Looking a key up finds nothing. -/
def Misses (desk : Desk FaultyStore) (key : String) : Prop :=
  (lookUp key).run desk = (.ok none, { desk with store.pending.get := none })

theorem misses_of_notFound {missed : String}
    (pending : desk.store.pending.get = some (.notFound missed)) (key : String) :
    Misses desk key := by
  change lookUp key desk = _
  simp only [lookUp, DocumentStore.get, pending]

theorem same_lookUp {key : String} (misses : Misses desk key) :
    Same desk (lookUp key) (lookUp key) := by
  rw [Same, misses]
  rfl

end Session

namespace Collection

open Session

variable {collection : Collection} {desk : Desk FaultyStore}

/-- The key that an action looks a document up under. -/
def Action.LooksUp (collection : Collection) : Action → String → Prop
  | .prepare, key => key = collection.config.designId
  | .find _, _ => False
  | .save entry, key =>
      ∃ id, givenId (entry.member? "id") = .given id ∧ key = collection.config.privateId id
  | .delete id, key => key = collection.config.privateId id

theorem same_store (members : Fields Json) (id : String) (revision : Option Json) :
    Same desk (collection.store members id revision) (collection.store members id revision) := by
  rw [store_eq, store_eq]
  apply (same_write _ _).bind
  exact fun _ _ => same_pure _

theorem same_prepare (misses : Misses desk collection.config.designId) :
    Same desk collection.prepare collection.prepare := by
  rw [prepare_eq, prepare_eq]
  apply (same_lookUp misses).bind
  intro existing after
  apply (same_write _ _).bind
  exact fun _ _ => same_pure _

theorem same_find (query : Query) : Same desk (collection.find query) (collection.find query) := by
  apply (same_wanted query).bind
  intro fields after
  cases query.id with
  | some id =>
      apply Same.bind
      · apply (same_rows _ _ _).bind
        intro found after
        split
        · exact same_pure _
        · exact same_refuse _
      · exact fun _ _ => same_pure _
  | none =>
      apply Same.bind
      · apply (same_rows _ _ _).bind
        exact fun _ _ => same_pure _
      · intro documents after
        dsimp only
        split <;> exact same_pure _

theorem same_saveAs (id : Option String) (body : Fields Json)
    (misses : ∀ id', id = some id' → Misses desk (collection.config.privateId id')) :
    Same desk (collection.saveAs id body) (collection.saveAs id body) := by
  unfold saveAs
  split
  · exact same_refuse _
  · cases id with
    | some id =>
        apply (same_lookUp (misses id rfl)).bind
        intro existing after
        exact same_store _ _ _
    | none =>
        apply (same_mintId _ _).bind
        intro id after
        exact same_store _ _ _

theorem same_save (entry : Json)
    (misses : ∀ id, givenId (entry.member? "id") = .given id →
      Misses desk (collection.config.privateId id)) :
    Same desk (collection.save entry) (collection.save entry) := by
  cases entry with
  | object members =>
      simp only [save]
      cases given : givenId (Fields.get? members "id") with
      | absent => exact same_saveAs none _ fun _ same => absurd same (Option.some_ne_none _).symm
      | given id =>
          apply same_saveAs (some id)
          intro other same
          cases same
          exact misses id given
      | unusable value => exact same_refuse _
  | null => exact same_refuse _
  | bool _ => exact same_refuse _
  | number _ => exact same_refuse _
  | string _ => exact same_refuse _
  | array _ => exact same_refuse _

theorem same_delete {id : String} (misses : Misses desk (collection.config.privateId id)) :
    Same desk (collection.delete id) (collection.delete id) := by
  apply (same_lookUp misses).bind
  intro existing after
  cases existing with
  | none => exact same_refuse _
  | some document =>
      apply (same_write _ _).bind
      exact fun _ _ => same_pure _

theorem run_delete_of_misses {id : String}
    (misses : Misses desk (collection.config.privateId id)) :
    ((collection.delete id).run desk).1 = .error (collection.notFound id) := by
  rw [delete, run_bind, misses]
  rfl

/-- An action that looks a document up in vain goes on as over a forgetful store. -/
theorem same_perform {action : Action}
    (misses : ∀ key, action.LooksUp collection key → Misses desk key) :
    Same desk (collection.perform action) (collection.perform action) := by
  cases action with
  | prepare =>
      apply (same_prepare (misses _ rfl)).bind
      exact fun _ _ => same_pure _
  | find query =>
      apply (same_find query).bind
      exact fun _ _ => same_pure _
  | save entry =>
      apply (same_save entry fun id given => misses _ ⟨id, given, rfl⟩).bind
      exact fun _ _ => same_pure _
  | delete id =>
      apply (same_delete (misses _ rfl)).bind
      exact fun _ _ => same_pure _

end Collection

end Folio

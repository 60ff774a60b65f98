import Folio.Proofs.Collection.Privacy
import Folio.Proofs.Collection.Runs

/-!
# The design document of a collection

A collection keeps its design document in the store that holds its documents, and it may be
called anything.  Still the key of the design document is made of no public id, and does not
start as the keys of the documents do.  So saving and deleting make no call for the design
document, whatever the store is, and no list that is answered has it in it.
-/

namespace Folio

/-! ## What sessions keep -/

namespace Session

variable {σ α β : Type} {holds : σ → Prop} {key other : String}

/-- Whether a session keeps a property of the store that it works on. -/
def Keeps (holds : σ → Prop) (session : Session σ α) : Prop :=
  ∀ desk : Desk σ, holds desk.store → holds (session.run desk).2.store

theorem keeps_refuse (error : QueryError) : Keeps holds (refuse error : Session σ α) :=
  fun _ before => before

theorem keeps_mintId (mint : Nat → Json → String) (document : Json) :
    Keeps holds (mintId mint document) :=
  fun _ before => before

theorem Keeps.bind {first : Session σ α} {next : α → Session σ β} (keeps : Keeps holds first)
    (onward : ∀ value, Keeps holds (next value)) : Keeps holds (first >>= next) := by
  intro desk before
  have between := keeps desk before
  rw [run_bind]
  rcases outcome : first.run desk with ⟨error | value, after⟩
  · rwa [outcome] at between
  · rw [outcome] at between
    exact onward value after between

theorem Keeps.map {session : Session σ α} (keeps : Keeps holds session) (make : α → β) :
    Keeps holds (session >>= fun value => pure (make value)) := by
  intro desk before
  rw [run_bind_pure]
  exact keeps desk before

section Calls

variable [DocumentStore σ] (beside : Beside key holds) (different : other ≠ key)
include beside different

theorem keeps_lookUp : Keeps holds (lookUp other) := by
  intro desk before
  rw [snd_run_lookUp]
  exact beside.get different before

theorem keeps_write (document : Json) : Keeps holds (write document other) := by
  intro desk before
  rw [run_write_eq]
  exact beside.insert document different before

end Calls

end Session

namespace Collection

open Session Text

variable {collection : Collection}

/-! ## Saving and deleting -/

/-- What a collection works on, whatever its store is, after actions that were carried out one
after the other. -/
def deskLeft {σ : Type} [DocumentStore σ] (collection : Collection) (desk : Desk σ)
    (actions : List Action) : Desk σ :=
  actions.foldl (fun desk action => ((collection.perform action).run desk).2) desk

section Keeps

variable {σ : Type} [DocumentStore σ] {holds : σ → Prop} {desk : Desk σ}
  (beside : Beside collection.config.designId holds)
include beside

theorem keeps_store (members : Fields Json) (id : String) (revision : Option Json) :
    Keeps holds (collection.store members id revision) := by
  rw [store_eq]
  exact (keeps_write beside (collection.config.privateId_ne_designId id) _).map fun _ => id

theorem keeps_save (entry : Json) : Keeps holds (collection.save entry) := by
  rcases save_cases σ collection entry with
    ⟨refusal, same⟩ | ⟨members, id, same⟩ | ⟨members, same⟩
  · rw [same]
    exact keeps_refuse refusal
  · rw [same]
    apply (keeps_lookUp beside (collection.config.privateId_ne_designId id)).bind
    intro existing
    exact keeps_store beside members id _
  · rw [same]
    exact Keeps.bind (keeps_mintId _ _) fun id => keeps_store beside members id none

theorem keeps_delete (id : String) : Keeps holds (collection.delete id) := by
  apply (keeps_lookUp beside (collection.config.privateId_ne_designId id)).bind
  intro existing
  cases existing with
  | none => exact keeps_refuse _
  | some document =>
      exact (keeps_write beside (collection.config.privateId_ne_designId id) _).map fun _ => ()

theorem keeps_perform {action : Action} (writes : action.Writes) :
    Keeps holds (collection.perform action) := by
  cases action with
  | prepare => exact writes.elim
  | find query => exact writes.elim
  | save entry => exact (keeps_save beside entry).map Reply.saved
  | delete id => exact (keeps_delete beside id).map fun _ => Reply.done

theorem holds_deskLeft {actions : List Action} (writes : ∀ action ∈ actions, action.Writes)
    (before : holds desk.store) : holds (collection.deskLeft desk actions).store := by
  induction actions generalizing desk with
  | nil => exact before
  | cons action rest ih =>
      rw [List.forall_mem_cons] at writes
      exact ih writes.2 (keeps_perform beside writes.1 desk before)

end Keeps

/-! ## Listing -/

theorem key_ne_designId_of_mem_rowsFrom {store : Store} {options : ViewOptions} {row : ViewRow}
    (member : row ∈ store.rowsFrom collection.config.keyStart options) :
    row.key ≠ collection.config.designId := by
  intro same
  apply collection.config.not_startsWith_designId
  rw [← same]
  exact Store.startsWith_of_mem_rowsFrom member

theorem published?_eq_none_of_designId {content : Json}
    (carries : content.stringMember? idMember = some collection.config.designId) :
    collection.published? content = none := by
  rw [published?_eq, carries, Option.bind_some, CollectionConfig.publicId?_designId]
  rfl

/-- Whether a row holds something else than the design document. -/
def isDocument (collection : Collection) (row : ViewRow) : Bool :=
  row.content.stringMember? idMember != some collection.config.designId

/-- A list is answered as if no row held the design document. -/
theorem answerFrom_filter_isDocument {query : Query} (all : query.id = none)
    (fields : Option Selection) (rows : List ViewRow) :
    collection.answerFrom query fields (rows.filter collection.isDocument) =
      collection.answerFrom query fields rows := by
  have unseen {α : Type} (make? : Json → Option α) :
      (rows.filter collection.isDocument).filterMap (fun row =>
          (collection.passed? query.filters row.content).bind make?) =
        rows.filterMap fun row =>
          (collection.passed? query.filters row.content).bind make? := by
    rw [List.filterMap_filter]
    apply List.filterMap_congr
    intro row _
    by_cases carries : row.content.stringMember? idMember = some collection.config.designId
    · have hidden : collection.passed? query.filters row.content = none := by
        rw [passed?, published?_eq_none_of_designId carries]
        rfl
      rw [hidden, Option.bind_none, ite_self]
    · have other : collection.isDocument row = true := bne_iff_ne.mpr carries
      rw [if_pos other]
  simp only [answerFrom, all, Option.map_eq_bind, unseen]

/-! ## Out of reach -/

/-- The key of the design document is made of no public id and does not start as the keys of
the collection do.  So whatever outlasts the calls to a store that are for other documents
outlasts every run of saves and deletes.  Over a store that keeps its documents in a plain
store, such a run, after the collection was set up, leaves the design document as it is, and the
view of all documents has no row for it.  And whatever rows a store gives, a list is answered as
if none of them held the design document. -/
theorem design_out_of_reach (σ : Type) [DocumentStore σ] (collection : Collection) :
    (∀ id, collection.config.privateId id ≠ collection.config.designId) ∧
    ¬ startsWith collection.config.keyStart collection.config.designId ∧
    (∀ (holds : σ → Prop) (desk : Desk σ) (actions : List Action),
      Beside collection.config.designId holds → (∀ action ∈ actions, action.Writes) →
      holds desk.store → holds (collection.deskLeft desk actions).store) ∧
    (∀ [Layered σ] (desk prepared : Desk σ) (actions : List Action),
      (collection.prepare).run desk = (.ok (), prepared) →
      (∀ action ∈ actions, action.Writes) →
      (Layered.plain (collection.deskLeft prepared actions).store).current?
          collection.config.designId =
        (Layered.plain prepared.store).current? collection.config.designId ∧
      ∀ options, ∃ rows,
        (Layered.plain (collection.deskLeft prepared actions).store).view
          collection.config.name findAllView options = .ok rows ∧
        ∀ row ∈ rows, row.key ≠ collection.config.designId) ∧
    ∀ (desk : Desk σ) (query : Query) (fields : Option Selection) (rows : List ViewRow),
      query.id = none → query.Reads fields → Yields collection query desk rows →
      ((collection.find query).run desk).1 =
        collection.answerFrom query fields (rows.filter collection.isDocument) := by
  refine ⟨collection.config.privateId_ne_designId, collection.config.not_startsWith_designId,
    ?_, ?_, ?_⟩
  · intro holds desk actions beside writes before
    exact holds_deskLeft beside writes before
  · intro layered desk prepared actions run writes
    have unchanged : (Layered.plain (collection.deskLeft prepared actions).store).current?
        collection.config.designId =
          (Layered.plain prepared.store).current? collection.config.designId :=
      holds_deskLeft (Layered.beside _ _) writes rfl
    use unchanged
    intro options
    rcases exists_insert_of_prepare run with ⟨_, _, _, revision, declared⟩
    rw [← unchanged] at declared
    exact ⟨_, view_findAll_of_declared declared options,
      fun row member => key_ne_designId_of_mem_rowsFrom member⟩
  · intro desk query fields rows all reads yields
    rw [run_find_of_yields reads yields, answerFrom_filter_isDocument all]

/-- A collection whose keys and the key of whose design document start with its own name. -/
def nested : Collection := ⟨{ name := "_design/_design/" }, fun _ _ => "new"⟩

/-- The design document, and behind it a document of the collection. -/
def nestedRows : List ViewRow :=
  [⟨"_design/_design/_design/", "_design/_design/_design/",
      .object [(idMember, .string "_design/_design/_design/")], none⟩,
    ⟨"_design/_design/-tom", "_design/_design/-tom",
      .object [(idMember, .string "_design/_design/-tom")], none⟩]

/-- An empty store whose next view is made to show the design document as well. -/
def nestedDesk : Desk FaultyStore :=
  { store := { store := .empty, pending := { rows := some nestedRows } } }

theorem beside_pending_rows (key : String) (rows : List ViewRow) :
    Beside key fun faulty : FaultyStore =>
      faulty.pending.view = none ∧ faulty.pending.rows = some rows where
  get {faulty other} _ before := by
    simp only [DocumentStore.get]
    cases faulty.pending.get <;> exact before
  insert {faulty} document other _ before := by
    simp only [DocumentStore.insert]
    cases faulty.pending.insert with
    | some error => exact before
    | none => cases faulty.store.insert document other <;> exact before

/-- A document is saved and deleted beside the design document, which stays as it is, and is not
listed although a row shows it. -/
theorem design_out_of_reach_nested :
    let actions := [Action.save (.object [("id", .string "_design/")]), .delete "_design/"]
    let prepared := ((nested.prepare).run nestedDesk).2
    let left := nested.deskLeft prepared actions
    nested.config.privateId "_design/" ≠ "_design/_design/_design/" ∧
    left.store.store.current? "_design/_design/_design/" =
      prepared.store.store.current? "_design/_design/_design/" ∧
    (∃ rows, left.store.store.view "_design/_design/" findAllView {} = .ok rows ∧
      ∀ row ∈ rows, row.key ≠ "_design/_design/_design/") ∧
    ((nested.find Query.all).run left).1 = .ok (.ids ["tom"]) := by
  intro actions prepared left
  rcases design_out_of_reach FaultyStore nested with ⟨keys, _, outlasts, untouched, listed⟩
  have writes : ∀ action ∈ actions, action.Writes := by
    simp [actions, Action.Writes]
  have run : (nested.prepare).run nestedDesk = (.ok (), prepared) := Prod.ext rfl rfl
  have kept := untouched nestedDesk prepared actions run writes
  -- The run reads no view, so the rows that show the design document are still to come.
  have waiting := outlasts _ prepared actions (beside_pending_rows _ nestedRows) writes ⟨rfl, rfl⟩
  have yields : Yields nested Query.all left nestedRows :=
    ⟨_, by
      simp only [DocumentStore.view, left, waiting]
      rfl⟩
  refine ⟨keys _, kept.1, kept.2 {}, ?_⟩
  rw [listed left Query.all none nestedRows rfl rfl yields]
  rfl

end Collection

end Folio

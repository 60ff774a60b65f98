import Folio.Proofs.Collection.Forms
import Folio.Proofs.Collection.Kept
import Folio.Proofs.Store.Proper
import Folio.Proofs.Store.Reading

/-!
# Updates one after the other

Setting up, saving under an id and deleting look a document up before they write, and give
back what they find as its revision.  So none of them is ever refused by a conflict with
what was written before, whatever the store holds: documents of other writers, tombstones,
and documents that were put back without a revision or with one that is no text.
-/

namespace Folio.Collection

open Session

variable {collection : Collection} {desk : Desk Store} {members : Fields Json} {id : String}

/-- Whether an answer is that a write was in conflict with what is stored. -/
def Conflicts {α : Type} (answer : Except QueryError α) : Prop :=
  ∃ reason, answer = .error (.store (.conflict reason))

/-! ## Saving under an id -/

section Given

variable (given : givenId (Fields.get? members "id") = .given id)
include given

theorem run_save_of_foreign (foreign : Register.isForeign collection (Register.payload members)) :
    (collection.save (.object members)).run desk =
      (.error (collection.mismatch (.object (Register.payload members))), desk) := by
  have refused : collection.admitted (withoutPrivate (Fields.erase members "id")) =
      .error (collection.mismatch (.object (Register.payload members))) := by
    rw [admitted_eq]
    exact if_pos foreign
  simp only [save, given, saveAs, refused, run_refuse]

/-- An entry that brings an id is stored under it, if its payload is not foreign to the schema,
in place of what is alive there. -/
theorem run_save_of_replaceable (distinct : (Fields.names members).Nodup)
    (fits : ¬ Register.isForeign collection (Register.payload members))
    (replaceable : desk.store.Replaceable (collection.config.privateId id)) :
    ∃ revision, (collection.save (.object members)).run desk = (.ok id, { desk with
      store := desk.store.place (collection.config.privateId id) (.object
        (stored collection.config id (Register.kept collection (Register.payload members))
          revision)) }) := by
  have taken : collection.admitted (withoutPrivate (Fields.erase members "id")) =
      .ok (Register.kept collection (Register.payload members)) := by
    rw [admitted_eq]
    exact if_neg fits
  have plain := plain_kept collection (plain_payload distinct)
  rcases run_store_of_replaceable plain replaceable with ⟨revision, run⟩
  use revision
  simp only [save, given, saveAs, taken, run_bind, run_lookUp, run]

end Given

/-! ## Stores of proper values -/

section Proper

variable (proper : desk.store.Proper)
include proper

theorem run_prepare_of_proper : ((collection.prepare).run desk).1 = .ok () := by
  rcases run_prepare_of_replaceable (proper.replaceable collection.config.designId) with
    ⟨revision, run⟩
  rw [run]

theorem not_conflicts_run_prepare : ¬ Conflicts ((collection.prepare).run desk).1 := by
  rintro ⟨reason, conflict⟩
  rw [run_prepare_of_proper proper] at conflict
  cases conflict

theorem exists_run_save_of_proper (wellFormed : (Json.object members).WellFormed)
    (given : givenId (Fields.get? members "id") = .given id)
    (fits : ¬ Register.isForeign collection (Register.payload members)) :
    ∃ after document, (collection.save (.object members)).run desk = (.ok id, after) ∧
      after.store.get (collection.config.privateId id) = .ok document := by
  have replaceable := proper.replaceable (collection.config.privateId id)
  have plain := plain_kept collection (plain_payload wellFormed.1)
  rcases run_save_of_replaceable given wellFormed.1 fits replaceable with ⟨revision, run⟩
  have alive := Store.live?_place_self desk.store (collection.config.privateId id)
    (@isDeleted_stored collection.config id revision _ plain)
  exact ⟨_, _, run, Store.get_eq_ok_iff.mpr alive⟩

/-- A document is deleted if there is one. -/
theorem run_delete_of_proper (id : String) :
    ((collection.delete id).run desk).1 =
      match desk.store.get (collection.config.privateId id) with
      | .ok _ => .ok ()
      | .error _ => .error (.notFound collection.config.name id) := by
  rw [Store.get]
  cases alive : desk.store.live? (collection.config.privateId id) with
  | none =>
      rw [run_delete_of_dead alive]
      rfl
  | some document =>
      rcases proper.exists_members alive with ⟨members, rfl⟩
      rcases run_delete_of_live alive (proper.replaceable _) with ⟨sequence, run⟩
      rw [run]

theorem not_conflicts_run_save (wellFormed : (Json.object members).WellFormed)
    (given : givenId (Fields.get? members "id") = .given id) :
    ¬ Conflicts ((collection.save (.object members)).run desk).1 := by
  rintro ⟨reason, conflict⟩
  by_cases foreign : Register.isForeign collection (Register.payload members)
  · rw [run_save_of_foreign given foreign, mismatch] at conflict
    cases conflict
  · rcases exists_run_save_of_proper proper wellFormed given foreign with ⟨_, _, run, _⟩
    rw [run] at conflict
    cases conflict

theorem not_conflicts_run_delete (id : String) :
    ¬ Conflicts ((collection.delete id).run desk).1 := by
  rintro ⟨reason, conflict⟩
  rw [run_delete_of_proper proper] at conflict
  split at conflict <;> cases conflict

end Proper

/-- In every store of proper values a collection can be set up, an entry that brings an id and
is not foreign to the schema is saved and alive afterwards, and deleting succeeds exactly when
a document is alive and is otherwise answered by the refusal that there is none.  Neither
setting up, nor saving an entry that brings an id, nor deleting is ever answered by a
conflict. -/
theorem updates_succeed (collection : Collection) (proper : desk.store.Proper) :
    ((collection.prepare).run desk).1 = .ok () ∧
    (∀ members id, (Json.object members).WellFormed →
      givenId (Fields.get? members "id") = .given id →
      ¬ Register.isForeign collection (Register.payload members) →
      ∃ after document, (collection.save (.object members)).run desk = (.ok id, after) ∧
        after.store.get (collection.config.privateId id) = .ok document) ∧
    (∀ id, (((collection.delete id).run desk).1 = .ok () ↔
        ∃ document, desk.store.get (collection.config.privateId id) = .ok document) ∧
      ((¬ ∃ document, desk.store.get (collection.config.privateId id) = .ok document) →
        ((collection.delete id).run desk).1 = .error (.notFound collection.config.name id))) ∧
    ¬ Conflicts ((collection.prepare).run desk).1 ∧
    (∀ members id, (Json.object members).WellFormed →
      givenId (Fields.get? members "id") = .given id →
      ¬ Conflicts ((collection.save (.object members)).run desk).1) ∧
    ∀ id, ¬ Conflicts ((collection.delete id).run desk).1 := by
  refine ⟨run_prepare_of_proper proper, ?_, ?_, not_conflicts_run_prepare proper, ?_,
    not_conflicts_run_delete proper⟩
  · intro members id wellFormed given fits
    exact exists_run_save_of_proper proper wellFormed given fits
  · intro id
    rw [run_delete_of_proper proper id]
    cases desk.store.get (collection.config.privateId id) <;> simp
  · intro members id wellFormed given
    exact not_conflicts_run_save proper wellFormed given

/-- A store that holds a design document whose revision is a number, and a cat whose revision
is nothing. -/
def strays : Store :=
  (Store.empty.restore (.object [(idMember, .string "_design/cat"),
    (revisionMember, .number (.integer 7))])).restore
      (.object [(idMember, .string "cat-tom"), (revisionMember, .null)])

theorem proper_strays : strays.Proper := by
  apply Store.Proper.restore
  · apply Store.Proper.restore
    · exact .empty
    · simp [Json.WellFormed, Json.WellFormedMembers, Fields.names, idMember, revisionMember]
  · simp [Json.WellFormed, Json.WellFormedMembers, Fields.names, idMember, revisionMember]

/-- The stray design document is replaced, and the stray cat is replaced or deleted. -/
theorem updates_succeed_strays :
    let cats : Collection := { config := { name := "cat" }, mint := fun _ _ => "" }
    let desk : Desk Store := { store := strays }
    ((cats.prepare).run desk).1 = .ok () ∧
    (∃ after document, (cats.save (.object [("id", .string "tom")])).run desk =
      (.ok "tom", after) ∧ after.store.get "cat-tom" = .ok document) ∧
    ((cats.delete "tom").run desk).1 = .ok () ∧
    ((cats.delete "ada").run desk).1 = .error (.notFound "cat" "ada") := by
  intro cats desk
  have proper : desk.store.Proper := proper_strays
  rcases updates_succeed cats proper with ⟨prepared, saved, deleted, -⟩
  refine ⟨prepared, ?_, ?_, ?_⟩
  · apply saved [("id", .string "tom")] "tom"
    · simp [Json.WellFormed, Json.WellFormedMembers, Fields.names]
    · rfl
    · decide
  · apply (deleted "tom").1.mpr
    exact ⟨_, rfl⟩
  · apply (deleted "ada").2
    rintro ⟨document, alive⟩
    contradiction

/-! ## Runs -/

theorem wellFormed_carrying (wellFormed : (Json.object members).WellFormed) {given : Option Json}
    (proper : ∀ revision, given = some revision → revision.WellFormed) :
    (Json.object (carrying members given)).WellFormed := by
  cases given with
  | none => exact wellFormed
  | some revision => exact Json.wellFormed_put wellFormed _ (proper revision rfl)

theorem wellFormed_design (collection : Collection) :
    (Json.object collection.design).WellFormed := by
  simp [design, Json.WellFormed, Json.WellFormedMembers, Fields.names]

section Kept

variable (proper : desk.store.Proper)
include proper

theorem wellFormed_revision (key : String) :
    ∀ revision, (desk.store.live? key).bind (Json.member? · revisionMember) = some revision →
      revision.WellFormed := by
  intro revision carried
  rcases Option.bind_eq_some_iff.mp carried with ⟨document, alive, bound⟩
  exact Json.wellFormed_of_member? (proper.wellFormed (Store.live?_eq_some_iff.mp alive).1) bound

theorem proper_run_write {document : Json} (wellFormed : document.WellFormed) (key : String) :
    ((write document key).run desk).2.store.Proper := by
  rw [run_write]
  cases written : desk.store.insert document key with
  | error error => exact proper
  | ok acknowledged => exact proper.insert wellFormed written

theorem proper_run_prepare : ((collection.prepare).run desk).2.store.Proper := by
  rw [prepare_eq, run_bind, run_lookUp]
  dsimp only
  rw [run_bind_pure]
  apply proper_run_write proper
  exact wellFormed_carrying (wellFormed_design collection) (wellFormed_revision proper _)

theorem proper_run_store (wellFormed : (Json.object members).WellFormed) (id : String)
    {given : Option Json} (carried : ∀ revision, given = some revision → revision.WellFormed) :
    ((collection.store members id given).run desk).2.store.Proper := by
  rw [store_eq, run_bind_pure]
  apply proper_run_write proper
  apply wellFormed_carrying _ carried
  apply Json.wellFormed_put wellFormed
  trivial

theorem proper_run_saveAs (configured : collection.config.WellFormed) (id : Option String)
    {body : Fields Json} (wellFormed : (Json.object (withoutPrivate body)).WellFormed) :
    ((collection.saveAs id body).run desk).2.store.Proper := by
  unfold saveAs
  rw [admitted_eq]
  by_cases foreign : Register.isForeign collection (withoutPrivate body)
  · rw [if_pos foreign]
    exact proper
  · rw [if_neg foreign]
    have kept := wellFormed_kept configured wellFormed
    cases id with
    | some id =>
        simp only [run_bind, run_lookUp]
        exact proper_run_store proper kept id (wellFormed_revision proper _)
    | none =>
        have minted : ({ desk with minted := desk.minted + 1 } : Desk Store).store.Proper := proper
        have absent : ∀ revision, (none : Option Json) = some revision → revision.WellFormed := nofun
        rw [run_bind, run_mintId]
        exact proper_run_store minted kept _ absent

theorem proper_run_save (configured : collection.config.WellFormed) {entry : Json}
    (wellFormed : entry.WellFormed) : ((collection.save entry).run desk).2.store.Proper := by
  cases entry with
  | object members =>
      have saved (id : Option String) :=
        proper_run_saveAs proper configured id (wellFormed_payload wellFormed)
      simp only [save]
      split
      · exact saved none
      · exact saved (some _)
      · exact proper
  | null => exact proper
  | bool _ => exact proper
  | number _ => exact proper
  | string _ => exact proper
  | array _ => exact proper

theorem proper_run_delete (id : String) : ((collection.delete id).run desk).2.store.Proper := by
  cases alive : desk.store.live? (collection.config.privateId id) with
  | none =>
      rw [run_delete_of_dead alive]
      exact proper
  | some document =>
      have formed := proper.wellFormed (Store.live?_eq_some_iff.mp alive).1
      rcases proper.exists_members alive with ⟨members, rfl⟩
      rw [delete, run_bind, run_lookUp, alive]
      dsimp only
      rw [run_bind_pure]
      apply proper_run_write proper
      exact Json.wellFormed_put formed _ trivial

/-- Finding changes nothing and is never answered by a conflict. -/
theorem exists_run_find (query : Query) :
    ∃ answer, (collection.find query).run desk = (answer, desk) ∧ ¬ Conflicts answer := by
  rcases query.reads_or_malformed with ⟨fields, reads⟩ | ⟨refusal, malformed⟩
  · refine ⟨_, run_find_of_keyed proper.reached.keyed reads, ?_⟩
    rintro ⟨reason, conflict⟩
    simp only [answerThrough, notFound] at conflict
    split at conflict
    · cases conflict
    · split at conflict
      · cases conflict
      · split at conflict
        · split at conflict <;> cases conflict
        · cases conflict
  · use .error (.malformed refusal)
    constructor
    · rw [find, run_bind, run_wanted, malformed]
    · rintro ⟨reason, conflict⟩
      cases conflict

end Kept

/-- Whether an action, if it saves an entry, saves one that brings an id. -/
def Action.BringsId : Action → Prop
  | .save entry => ∃ members id, entry = .object members ∧
      givenId (Fields.get? members "id") = .given id
  | _ => True

theorem not_conflicts_map {α β : Type} {answer : Except QueryError α}
    (calm : ¬ Conflicts answer) (make : α → β) : ¬ Conflicts (answer.map make) := by
  rintro ⟨reason, conflict⟩
  cases answer with
  | error error =>
      cases conflict
      exact calm ⟨reason, rfl⟩
  | ok value => cases conflict

section Runs

variable {action : Action} {actions : List Action}

/-- Every action on proper values leaves a store of proper values. -/
theorem proper_perform (configured : collection.config.WellFormed)
    (proper : desk.store.Proper) (wellFormed : action.WellFormed) :
    ((collection.perform action).run desk).2.store.Proper := by
  cases action with
  | prepare =>
      rw [perform, run_bind_pure]
      exact proper_run_prepare proper
  | find query =>
      rcases exists_run_find proper query with ⟨answer, run, -⟩
      rw [perform, run_bind_pure, run]
      exact proper
  | save entry =>
      rw [perform, run_bind_pure]
      exact proper_run_save proper configured wellFormed
  | delete id =>
      rw [perform, run_bind_pure]
      exact proper_run_delete proper id

/-- Unless an id is minted no action is answered by a conflict. -/
theorem not_conflicts_perform (proper : desk.store.Proper) (wellFormed : action.WellFormed)
    (brings : action.BringsId) : ¬ Conflicts ((collection.perform action).run desk).1 := by
  cases action with
  | prepare =>
      rw [perform, run_bind_pure]
      exact not_conflicts_map (not_conflicts_run_prepare proper) _
  | find query =>
      rcases exists_run_find proper query with ⟨answer, run, calm⟩
      rw [perform, run_bind_pure, run]
      exact not_conflicts_map calm _
  | save entry =>
      rcases brings with ⟨members, id, rfl, given⟩
      rw [perform, run_bind_pure]
      exact not_conflicts_map (not_conflicts_run_save proper wellFormed given) _
  | delete id =>
      rw [perform, run_bind_pure]
      exact not_conflicts_map (not_conflicts_run_delete proper id) _

/-- In a run that mints no ids no action is ever answered by a conflict. -/
theorem not_conflicts_answers (configured : collection.config.WellFormed)
    (proper : desk.store.Proper) (wellFormed : ∀ action ∈ actions, action.WellFormed)
    (brings : ∀ action ∈ actions, action.BringsId) :
    ∀ answer ∈ collection.answers desk actions, ¬ Conflicts answer := by
  induction actions generalizing desk with
  | nil => exact fun _ member => absurd member List.not_mem_nil
  | cons action rest ih =>
      rw [List.forall_mem_cons] at wellFormed brings
      intro answer member
      rcases List.mem_cons.mp member with rfl | later
      · exact not_conflicts_perform proper wellFormed.1 brings.1
      · have next : ((collection.perform action).run desk).2.store.Proper :=
          proper_perform configured proper wellFormed.1
        exact ih next wellFormed.2 brings.2 answer later

end Runs

end Folio.Collection

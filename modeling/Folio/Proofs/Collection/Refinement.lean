import Folio.Proofs.Collection.Seen
import Folio.Proofs.Store.Write

/-!
# A collection answers as its catalogue

Over a store that represents a catalogue every action is answered as the catalogue
answers it, and leaves a store that represents the catalogue it leaves.  By
induction the answers of a whole run are those of the catalogue.
-/

namespace Folio.Collection

open Session

variable {collection : Collection}

/-- An outcome over a store is the one that is expected of a register. -/
structure Agrees (collection : Collection) {α : Type} (reply : α → Reply)
    (outcome : Except QueryError α × Desk Store)
    (expected : Except QueryError Reply × Register) : Prop where
  answer : outcome.1.map reply = expected.1
  minted : outcome.2.minted = expected.2.minted
  represents : Represents collection outcome.2.store expected.2.catalogue

/-! ## Reading -/

section Reading

variable {desk : Desk Store} {catalogue : Catalogue}

/-- A store that represents a catalogue serves the collection. -/
theorem Represents.serves (represents : Represents collection desk.store catalogue) :
    Serves collection desk.store where
  keyed {id document} alive := by
    cases found : catalogue.lookUp? id with
    | none =>
        rw [represents.mirrors.unbound found] at alive
        contradiction
    | some members =>
        rcases represents.mirrors.live?_eq_some found with ⟨revision, here⟩
        rw [here, Option.some.injEq] at alive
        subst alive
        exact key_stored (represents.mirrors.bound found).1
  declared := represents.declared

theorem seen?_of_represents (represents : Represents collection desk.store catalogue)
    (id : String) : collection.seen? desk.store id =
      (catalogue.lookUp? id).map fun members => Catalogue.document (id, members) := by
  cases found : catalogue.lookUp? id with
  | none => rw [seen?, represents.mirrors.unbound found, Option.bind_none, Option.map_none]
  | some members =>
      rcases represents.mirrors.live?_eq_some found with ⟨revision, alive⟩
      rw [seen?, alive, Option.bind_some, Option.map_some]
      exact published?_stored collection (represents.mirrors.bound found).1

/-- A reader sees the documents of the catalogue. -/
theorem seen_of_represents (represents : Represents collection desk.store catalogue) :
    collection.seen desk.store =
      catalogue.entries.map fun entry => (entry.1, Catalogue.document entry) := by
  apply eq_of_ascending_of_mem_iff (ascending_seen collection desk.store)
  · rw [List.pairwise_map]
    exact catalogue.ascending
  · rintro ⟨id, document⟩
    rw [mem_seen_iff, seen?_of_represents represents, Option.map_eq_some_iff, List.mem_map]
    constructor
    · rintro ⟨members, bound, rfl⟩
      exact ⟨(id, members), Catalogue.mem_entries_iff.mpr bound, rfl⟩
    · rintro ⟨⟨_, members⟩, member, same⟩
      cases same
      exact ⟨members, Catalogue.mem_entries_iff.mp member, rfl⟩

/-- A query is answered from the catalogue and changes nothing. -/
theorem run_find (represents : Represents collection desk.store catalogue) (query : Query) :
    (collection.find query).run desk = (Register.find collection catalogue query, desk) := by
  have answered (fields : Option Selection) : collection.answerWith desk.store query fields =
      Register.find.answer collection catalogue query fields := by
    unfold answerWith Register.find.answer
    cases query.id with
    | some id =>
        simp only [seen?_of_represents represents]
        cases catalogue.lookUp? id <;> rfl
    | none =>
        simp only [seen_of_represents represents, List.filter_map]
        simp [Function.comp_def]
  rw [represents.serves.run_find, answer, Register.find]
  cases query.reading with
  | error refusal => rfl
  | ok fields => simp only [answered]

end Reading

/-! ## Writing -/

section Writing

variable {desk : Desk Store} {register : Register} {key : String} {members : Fields Json}

/-- Members with the revision, if there is one, of the document that they replace. -/
def carrying (members : Fields Json) : Option Json → Fields Json
  | some revision => Fields.put members revisionMember revision
  | none => members

theorem prepare_eq {σ : Type} [DocumentStore σ] (collection : Collection) :
    (collection.prepare : Session σ Unit) = do
      let existing ← lookUp collection.config.designId
      let _ ← write (.object (carrying collection.design
        (existing.bind (Json.member? · revisionMember)))) collection.config.designId
      return () := rfl

theorem store_eq {σ : Type} [DocumentStore σ] (collection : Collection) (members : Fields Json)
    (id : String) (revision : Option Json) :
    (collection.store members id revision : Session σ String) = do
      let _ ← write (.object (carrying (Fields.put members "id" (.string id)) revision))
        (collection.config.privateId id)
      return id := rfl

/-- What saving an entry comes to: the entry is refused, or members of it are stored, under the
id that it gives in place of what is found there, or under an id that is minted. -/
theorem save_cases (σ : Type) [DocumentStore σ] (collection : Collection) (entry : Json) :
    (∃ refusal, (collection.save entry : Session σ String) = refuse refusal) ∨
      (∃ members id, (collection.save entry : Session σ String) =
        lookUp (collection.config.privateId id) >>= fun existing =>
          collection.store members id (existing.bind (Json.member? · revisionMember))) ∨
      ∃ members, (collection.save entry : Session σ String) =
        mintId collection.mint (.object members) >>= fun id =>
          collection.store members id none := by
  cases entry with
  | object members =>
      simp only [save]
      cases givenId (Fields.get? members "id") with
      | unusable value => exact .inl ⟨_, rfl⟩
      | given id =>
          simp only [saveAs]
          cases collection.admitted (withoutPrivate (Fields.erase members "id")) with
          | error refusal => exact .inl ⟨refusal, rfl⟩
          | ok kept => exact .inr (.inl ⟨kept, id, rfl⟩)
      | absent =>
          simp only [saveAs]
          cases collection.admitted (withoutPrivate (Fields.erase members "id")) with
          | error refusal => exact .inl ⟨refusal, rfl⟩
          | ok kept => exact .inr (.inr ⟨kept, rfl⟩)
  | null => exact .inl ⟨_, rfl⟩
  | bool _ => exact .inl ⟨_, rfl⟩
  | number _ => exact .inl ⟨_, rfl⟩
  | string _ => exact .inl ⟨_, rfl⟩
  | array _ => exact .inl ⟨_, rfl⟩

theorem revised_carrying (absent : revisionMember ∉ Fields.names members) (given : Option Json)
    (sequence : Nat) (key : String) :
    Store.revised sequence (carrying members given) key = Store.revised sequence members key := by
  cases given with
  | none => rfl
  | some revision => exact revised_put_revision absent revision sequence key

theorem revision_not_mem_design (collection : Collection) :
    revisionMember ∉ Fields.names collection.design := by
  simp [design, revisionMember]

theorem get?_carrying (absent : revisionMember ∉ Fields.names members) (given : Option Json) :
    Fields.get? (carrying members given) revisionMember = given := by
  cases given with
  | none => exact Fields.get?_eq_none_iff.mpr absent
  | some revision => exact Fields.get?_put_self _ _ _

/-- Members that carry the revision of what is alive replace it. -/
theorem run_write_carrying (absent : revisionMember ∉ Fields.names members)
    (replaceable : desk.store.Replaceable key) :
    ∃ sequence,
      (write (.object (carrying members
        ((desk.store.live? key).bind (Json.member? · revisionMember)))) key).run desk =
      (.ok (Store.revised sequence members key).ack,
        { desk with
          store := desk.store.place key (Store.revised sequence members key).document }) := by
  have accepted := replaceable.accepts
  rw [← get?_carrying absent ((desk.store.live? key).bind _)] at accepted
  rw [run_write, Store.insert_of_accepts accepted, revised_carrying absent]
  exact ⟨_, rfl⟩

theorem exists_revised_design (collection : Collection) (sequence : Nat) :
    ∃ revision, (Store.revised sequence collection.design collection.config.designId).document =
      collection.declaration revision :=
  ⟨_, by simp [Store.revised, declaration, design, Fields.erase, Fields.put, idMember,
    revisionMember]; rfl⟩

/-- Setting up declares the view of all documents, at first and again. -/
theorem run_prepare_of_replaceable
    (replaceable : desk.store.Replaceable collection.config.designId) :
    ∃ revision, (collection.prepare).run desk = (.ok (), { desk with
      store := desk.store.place collection.config.designId
        (collection.declaration revision) }) := by
  rcases run_write_carrying (revision_not_mem_design collection) replaceable with
    ⟨sequence, written⟩
  rcases exists_revised_design collection sequence with ⟨revision, declared⟩
  use revision
  simp only [prepare_eq, run_bind, run_lookUp, written, run_pure, declared]

/-- Setting up binds no id. -/
theorem run_prepare {catalogue : Catalogue} (desk : Desk Store)
    (mirrors : Mirrors collection.config desk.store catalogue)
    (replaceable : desk.store.Replaceable collection.config.designId) :
    ∃ store, (collection.prepare).run desk = (.ok (), { desk with store }) ∧
      Represents collection store catalogue := by
  rcases run_prepare_of_replaceable replaceable with ⟨revision, run⟩
  exact ⟨_, run, mirrors.place_design _, revision, Store.current?_place_self _ _ _⟩

/-- Plain members are stored under an id in place of what is alive there. -/
theorem run_store_of_replaceable (plain : Plain members) {id : String}
    (replaceable : desk.store.Replaceable (collection.config.privateId id)) :
    ∃ revision, (collection.store members id
        ((desk.store.live? (collection.config.privateId id)).bind
          (Json.member? · revisionMember))).run desk =
      (.ok id, { desk with
        store := desk.store.place (collection.config.privateId id)
          (.object (stored collection.config id members revision)) }) := by
  obtain ⟨sequence, written⟩ := run_write_carrying (plain.revision_not_mem_named id) replaceable
  obtain ⟨revision, named⟩ := revised_named collection.config id plain sequence
  rw [named] at written
  use revision
  simp only [store_eq, run_bind, written, run_pure]

theorem run_store {catalogue : Catalogue} (desk : Desk Store)
    (represents : Represents collection desk.store catalogue) (plain : Plain members)
    (id : String) :
    ∃ store, (collection.store members id ((desk.store.live? (collection.config.privateId id)).bind
        (Json.member? · revisionMember))).run desk = (.ok id, { desk with store }) ∧
      Represents collection store (catalogue.bind id members) := by
  have replaceable : desk.store.Replaceable (collection.config.privateId id) :=
    Store.replaceable_of_string fun _ alive => represents.mirrors.revision_of_live alive
  rcases run_store_of_replaceable plain replaceable with ⟨revision, run⟩
  exact ⟨_, run, represents.place (represents.mirrors.place_stored plain revision)⟩

/-- A document that is alive is marked as deleted. -/
theorem run_delete_of_live {id : String}
    (alive : desk.store.live? (collection.config.privateId id) = some (.object members))
    (replaceable : desk.store.Replaceable (collection.config.privateId id)) :
    ∃ sequence, (collection.delete id).run desk = (.ok (), { desk with
      store := desk.store.place (collection.config.privateId id)
        (Store.revised sequence (Fields.put members deletedMember (.bool true))
          (collection.config.privateId id)).document }) := by
  have accepted := replaceable.accepts_marked alive
  simp only [delete, run_bind, run_lookUp, alive, Json.object?, Option.getD_some, run_write,
    Store.insert_of_accepts accepted, run_pure]
  exact ⟨_, rfl⟩

theorem run_delete_of_dead {id : String}
    (dead : desk.store.live? (collection.config.privateId id) = none) :
    (collection.delete id).run desk = (.error (collection.notFound id), desk) := by
  simp only [delete, run_bind, run_lookUp, dead, run_refuse]

/-- A document whose id is bound is not replaced without a revision. -/
theorem run_store_none {catalogue : Catalogue} {bound : Fields Json} (desk : Desk Store)
    (represents : Represents collection desk.store catalogue) (plain : Plain members)
    {id : String} (taken : catalogue.lookUp? id = some bound) :
    (collection.store members id none).run desk =
      (.error (.store (.conflict
        s!"{collection.config.privateId id}: document update conflict")), desk) := by
  have absent : Fields.get? (Fields.put members "id" (.string id)) revisionMember = none := by
    rw [Fields.get?_put_of_ne members _ (by decide)]
    exact Fields.get?_eq_none_iff.mpr plain.revision_not_mem
  rcases represents.mirrors.live?_eq_some taken with ⟨revision, alive⟩
  have refused : desk.store.accepts (collection.config.privateId id)
      (Fields.get? (Fields.put members "id" (.string id)) revisionMember) = false := by
    rw [absent, Store.accepts_of_live?_eq_some alive, Json.member?,
      revision_stored (represents.mirrors.bound taken).1]
    rfl
  simp only [store_eq, carrying, run_bind, run_write, Store.insert_of_not_accepts refused]

/-- Members that are saved under an id are bound to it, unless the id is minted and
bound already. -/
theorem agrees_saveAs (represents : Represents collection desk.store register.catalogue)
    (minted : desk.minted = register.minted) (id : Option String) {body : Fields Json}
    (plain : Plain (withoutPrivate body)) :
    Agrees collection .saved ((collection.saveAs id body).run desk)
      (Register.enter collection register id (withoutPrivate body)) := by
  unfold saveAs Register.enter
  rw [admitted_eq, Register.mismatch_eq]
  by_cases foreign : Register.isForeign collection (withoutPrivate body)
  · rw [if_pos foreign, if_pos foreign]
    exact ⟨rfl, minted, represents⟩
  · rw [if_neg foreign, if_neg foreign]
    have keptPlain := plain_kept collection plain
    cases id with
    | some id =>
        rcases run_store desk represents keptPlain id with ⟨store, run, next⟩
        simp only [run_bind, run_lookUp, run]
        exact ⟨rfl, minted, next⟩
    | none =>
        simp only [run_bind, run_mintId, minted]
        cases taken : register.catalogue.lookUp? (collection.mint register.minted
          (.object (Register.kept collection (withoutPrivate body)))) with
        | none =>
            obtain ⟨store, run, next⟩ := run_store
              { desk with minted := register.minted + 1 } represents keptPlain _
            rw [represents.mirrors.unbound taken, Option.bind_none] at run
            rw [run]
            exact ⟨rfl, rfl, next⟩
        | some bound =>
            rw [run_store_none { desk with minted := register.minted + 1 } represents
              keptPlain taken]
            exact ⟨rfl, rfl, represents⟩

/-- An entry is saved as the catalogue saves it. -/
theorem agrees_save (represents : Represents collection desk.store register.catalogue)
    (minted : desk.minted = register.minted) {entry : Json} (wellFormed : entry.WellFormed) :
    Agrees collection .saved ((collection.save entry).run desk)
      (Register.save collection register entry) := by
  have refused (document : Json) : Agrees collection .saved
      ((refuse (collection.mismatch document) : Session Store String).run desk)
      (.error (Register.mismatch collection document), register) := by
    rw [Register.mismatch_eq]
    exact ⟨rfl, minted, represents⟩
  cases entry with
  | object members =>
      have plain := plain_payload wellFormed.1
      simp only [save, Register.save]
      cases Fields.get? members "id" with
      | none => exact agrees_saveAs represents minted none plain
      | some value =>
          cases value with
          | null => exact agrees_saveAs represents minted none plain
          | string id => exact agrees_saveAs represents minted (some id) plain
          | number value => exact agrees_saveAs represents minted (some value.text) plain
          | bool value => exact refused _
          | array items => exact refused _
          | object inner => exact refused _
  | null => exact refused _
  | bool value => exact refused _
  | number value => exact refused _
  | string value => exact refused _
  | array items => exact refused _

/-- Deleting a document takes the binding of its id away. -/
theorem agrees_delete (represents : Represents collection desk.store register.catalogue)
    (minted : desk.minted = register.minted) (id : String) :
    Agrees collection (fun _ => .done) ((collection.delete id).run desk)
      (Register.step collection register (.delete id)) := by
  rw [Register.step]
  cases found : register.catalogue.lookUp? id with
  | none =>
      rw [run_delete_of_dead (represents.mirrors.unbound found)]
      exact ⟨rfl, minted, represents⟩
  | some members =>
      rcases represents.mirrors.bound found with ⟨plain, -⟩
      rcases represents.mirrors.live?_eq_some found with ⟨revision, alive⟩
      have replaceable : desk.store.Replaceable (collection.config.privateId id) :=
        Store.replaceable_of_string fun _ alive => represents.mirrors.revision_of_live alive
      rcases run_delete_of_live alive replaceable with ⟨sequence, run⟩
      rw [run]
      refine ⟨rfl, minted, represents.place ?_⟩
      exact represents.mirrors.place_deleted (isDeleted_revised_deleted plain _ _)

end Writing

/-! ## Runs -/

section Runs

variable {desk : Desk Store} {register : Register}

/-- What a session answers can be reported as a reply. -/
theorem Agrees.reported {α : Type} {reply : α → Reply} {session : Session Store α}
    {expected : Except QueryError Reply × Register}
    (agrees : Agrees collection reply (session.run desk) expected) :
    Agrees collection id ((session >>= fun value => pure (reply value)).run desk) expected := by
  rcases agrees with ⟨answer, minted, represents⟩
  rw [run_bind]
  rcases outcome : session.run desk with ⟨_ | value, after⟩
  all_goals
    rw [outcome] at answer minted represents
    exact ⟨answer, minted, represents⟩

/-- Every action is answered as the catalogue answers it. -/
theorem agrees_perform (represents : Represents collection desk.store register.catalogue)
    (minted : desk.minted = register.minted) {action : Action} (wellFormed : action.WellFormed) :
    Agrees collection id ((collection.perform action).run desk)
      (Register.step collection register action) := by
  cases action with
  | prepare =>
      have replaceable : desk.store.Replaceable collection.config.designId := by
        apply Store.replaceable_of_string
        intro document alive
        rcases represents.declared with ⟨revision, declared⟩
        have same := (Store.live?_eq_some_iff.mp alive).1
        rw [declared, Option.some.injEq] at same
        exact ⟨revision, by rw [← same]; rfl⟩
      rcases run_prepare desk represents.mirrors replaceable with ⟨store, run, next⟩
      have prepared : Agrees collection (fun _ => .done) ((collection.prepare).run desk)
          (.ok .done, register) := by
        rw [run]
        exact ⟨rfl, minted, next⟩
      exact prepared.reported
  | find query =>
      have found : Agrees collection .found ((collection.find query).run desk)
          (Register.step collection register (.find query)) := by
        rw [run_find represents]
        exact ⟨rfl, minted, represents⟩
      exact found.reported
  | save entry => exact (agrees_save represents minted wellFormed).reported
  | delete id => exact (agrees_delete represents minted id).reported

/-- Over a store that represents a catalogue all actions are answered as the
catalogue answers them. -/
theorem answers_of_represents (represents : Represents collection desk.store register.catalogue)
    (minted : desk.minted = register.minted) {actions : List Action}
    (wellFormed : ∀ action ∈ actions, action.WellFormed) :
    collection.answers desk actions = Register.answers collection register actions := by
  induction actions generalizing desk register with
  | nil => rfl
  | cons action rest ih =>
      obtain ⟨answer, nextMinted, next⟩ :=
        agrees_perform represents minted (wellFormed action List.mem_cons_self)
      have later : collection.answers _ rest = Register.answers collection _ rest :=
        ih next nextMinted fun action member => wellFormed action (List.mem_cons_of_mem _ member)
      rw [Except.map_id] at answer
      exact congrArg₂ List.cons answer later

/-- A collection that is set up on an empty store answers every run of actions as a
plain map from ids to documents answers it. -/
theorem answers_prepare_eq (collection : Collection) (actions : List Action)
    (wellFormed : ∀ action ∈ actions, action.WellFormed) :
    collection.answers (⟨Store.empty, 0⟩ : Desk Store) (.prepare :: actions) =
      Register.answers collection ⟨Catalogue.empty, 0⟩ (.prepare :: actions) := by
  obtain ⟨store, run, represents⟩ := run_prepare ⟨Store.empty, 0⟩
    (mirrors_empty collection.config) (Store.replaceable_of_live?_eq_none rfl)
  have prepared : (collection.perform .prepare).run (⟨Store.empty, 0⟩ : Desk Store) =
      (.ok .done, ⟨store, 0⟩) := by
    rw [perform, run_bind, run]
    rfl
  rw [answers, prepared, Register.answers]
  exact congrArg (_ :: ·) (answers_of_represents represents rfl wellFormed)

/-- A note is saved without the revision that its entry claims, is in the way of a
second note with the same minted id, and is found until it is deleted. -/
theorem answers_of_one_note :
    (⟨{ name := "notes" }, fun _ _ => "first"⟩ : Collection).answers
        (⟨Store.empty, 0⟩ : Desk Store)
        [.prepare, .save (.object [("title", .string "Go"), ("_rev", .string "9-x")]),
          .save (.object [("title", .string "Stay")]), .find (Query.byId "first"),
          .delete "first", .delete "first"] =
      [.ok .done, .ok (.saved "first"),
        .error (.store (.conflict "notes-first: document update conflict")),
        .ok (.found (.document (.object [("id", .string "first"), ("title", .string "Go")]))),
        .ok .done, .error (.notFound "notes" "first")] := by
  rw [answers_prepare_eq]
  · rfl
  · intro action member
    simp only [List.mem_cons, List.not_mem_nil, or_false] at member
    rcases member with rfl | rfl | rfl | rfl | rfl <;>
      simp [Action.WellFormed, Json.WellFormed, Json.WellFormedMembers, Fields.names]

end Runs

end Folio.Collection

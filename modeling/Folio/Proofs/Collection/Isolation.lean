import Folio.Proofs.Collection.Forms
import Folio.Proofs.Collection.Runs

/-!
# Collections side by side

Collections that share a store are kept apart by their names alone.  A collection reads the
keys that start with its name and a hyphen, and the key of its design document, so another
collection stays out of its sight as long as it saves and deletes nothing under these keys.
Whether it can depends on the two names: the name of a collection may well start with the
name of another one and a hyphen, and nothing keeps such collections from being set up in
the same store.
-/

namespace Folio

open Text

namespace CollectionConfig

variable {config first second : CollectionConfig}

/-- Whether a collection reads what stands under a key. -/
def Claims (config : CollectionConfig) (key : String) : Prop :=
  startsWith config.keyStart key ∨ key = config.designId

theorem claims_privateId (config : CollectionConfig) (id : String) :
    config.Claims (config.privateId id) :=
  .inl (startsWith_append _ _)

/-- Of two different names, the one with a hyphen behind it starts the other one with a
hyphen behind it only if it starts the name already. -/
theorem startsWith_keyStart_iff (different : first.name ≠ second.name) :
    startsWith second.keyStart first.keyStart ↔ startsWith second.keyStart first.name := by
  have ends (config : CollectionConfig) : config.keyStart.toList = config.name.toList ++ ['-'] :=
    String.toList_append
  rw [startsWith, startsWith, List.isPrefixOf_iff_prefix, List.isPrefixOf_iff_prefix, ends first,
    List.prefix_concat_iff]
  apply or_iff_right
  intro same
  rw [ends second] at same
  exact different (String.toList_inj.mp (List.append_cancel_right same).symm)

/-- Some key of a collection is read by another one exactly when the name of one of them
starts with the name of the other one and a hyphen, or the key of the design document of
the other one starts so. -/
theorem exists_claims_iff (different : first.name ≠ second.name) :
    (∃ id, second.Claims (first.privateId id)) ↔
      startsWith second.keyStart first.name ∨ startsWith first.keyStart second.name ∨
        startsWith first.keyStart second.designId := by
  have designs : (∃ id, first.privateId id = second.designId) ↔
      startsWith first.keyStart second.designId := by
    constructor
    · rintro ⟨id, same⟩
      exact same ▸ startsWith_append _ _
    · intro starts
      rcases exists_eq_append_of_startsWith starts with ⟨id, same⟩
      exact ⟨id, same.symm⟩
  simp only [Claims, privateId_eq, exists_or, exists_startsWith_append_iff]
  rw [← startsWith_keyStart_iff different, ← startsWith_keyStart_iff different.symm, ← designs,
    or_assoc]
  rfl

end CollectionConfig

namespace Collection

open Session

variable {collection first second : Collection} {store next : Store} {desk after : Desk Store}

/-! ## What answers depend on -/

section Congruence

variable (same : ∀ key, collection.config.Claims key → next.current? key = store.current? key)
include same

theorem shown?_congr (start id : String) :
    collection.shown? next start id = collection.shown? store start id := by
  have own := same _ (collection.config.claims_privateId id)
  rw [shown?, shown?, seen?, seen?, Store.live?_congr own]

theorem passing_congr (start : String) (filters : List Filter) :
    collection.passing next start filters = collection.passing store start filters := by
  have shown : collection.shown next start = collection.shown store start := by
    apply eq_of_ascending_of_mem_iff ((ascending_seen _ _).filter _) ((ascending_seen _ _).filter _)
    rintro ⟨id, document⟩
    have shownNext := @mem_shown_iff collection next start id document
    rw [shown?_congr same, ← mem_shown_iff] at shownNext
    exact shownNext
  rw [passing, passing, shown]

/-- A query is answered from what stands under the keys that the collection reads, and from
nothing else. -/
theorem answer_congr (keyed : store.Keyed) (nextKeyed : next.Keyed) (query : Query)
    (minted : Nat) :
    ((collection.find query).run ⟨next, minted⟩).1 =
      ((collection.find query).run ⟨store, minted⟩).1 := by
  have design : next.live? collection.config.designId = store.live? collection.config.designId :=
    Store.live?_congr (same _ (.inr rfl))
  rcases query.reads_or_malformed with ⟨fields, reads⟩ | ⟨refusal, malformed⟩
  · have before : (collection.find query).run (⟨store, minted⟩ : Desk Store) = _ :=
      run_find_of_keyed keyed reads
    have later : (collection.find query).run (⟨next, minted⟩ : Desk Store) = _ :=
      run_find_of_keyed nextKeyed reads
    simp only [before, later, answerThrough, design, shown?_congr same, passing_congr same]
  · simp only [find, run_bind, run_wanted, malformed]

end Congruence

/-! ## Collections that get in each other's way -/

theorem current?_of_prepare (prepared : (collection.prepare).run desk = (.ok (), after))
    {key : String} (beside : key ≠ collection.config.designId) :
    after.store.current? key = desk.store.current? key := by
  rcases exists_insert_of_prepare prepared with ⟨document, ack, written, _⟩
  rcases Store.exists_of_insert_eq_ok written with ⟨members, sequence, _, next⟩
  exact (congrArg (Store.current? · key) next).trans (Store.current?_place_of_ne beside _)

theorem exists_run_prepare (free : desk.store.live? collection.config.designId = none) :
    ∃ after, (collection.prepare).run desk = (.ok (), after) := by
  rcases run_prepare_of_replaceable (Store.replaceable_of_live?_eq_none free) with ⟨_, run⟩
  exact ⟨_, run⟩

/-- Any two collections with different names can be set up in one store that holds nothing
else. -/
theorem exists_both_initialised (different : first.config.name ≠ second.config.name) :
    ∃ desk : Desk Store, Initialised first desk.store ∧ Initialised second desk.store ∧
      ∀ key, key ≠ first.config.designId → key ≠ second.config.designId →
        desk.store.current? key = none := by
  have designs : second.config.designId ≠ first.config.designId := by
    intro same
    have names := congrArg (after? "_design/") same
    rw [CollectionConfig.designId, CollectionConfig.designId, designKey, designKey, after?_append,
      after?_append, Option.some.injEq] at names
    exact different names.symm
  have vacant : (⟨Store.empty, 0⟩ : Desk Store).store.live? first.config.designId = none := rfl
  rcases exists_run_prepare vacant with ⟨middle, firstPrepared⟩
  have firstInitialised : Initialised first middle.store := .prepare .empty firstPrepared
  have free : middle.store.live? second.config.designId = none := by
    rw [Store.live?_congr (current?_of_prepare firstPrepared designs)]
    rfl
  rcases exists_run_prepare free with ⟨desk, secondPrepared⟩
  rcases exists_insert_of_prepare secondPrepared with ⟨document, ack, written, _⟩
  have elsewhere : ∀ key, key ≠ first.config.designId → key ≠ second.config.designId →
      desk.store.current? key = none := by
    intro key notFirst notSecond
    rw [current?_of_prepare secondPrepared notSecond, current?_of_prepare firstPrepared notFirst]
    rfl
  exact ⟨desk, firstInitialised.insert designs written,
    .prepare firstInitialised.reached secondPrepared, elsewhere⟩

/-- An entry with nothing but an id is stored as that, unless something without a revision is
in its place. -/
theorem exists_run_save_bare {id : String}
    (readable : ∀ document, desk.store.live? (collection.config.privateId id) = some document →
      ∃ revision, document.member? revisionMember = some (.string revision)) :
    ∃ revision, (collection.deskAfter desk [.save (.object [("id", .string id)])]).store =
      desk.store.place (collection.config.privateId id)
        (.object (stored collection.config id [] revision)) := by
  have nothing : collection.admitted (withoutPrivate []) = .ok [] := by
    rw [admitted]
    cases collection.config.schema with
    | none => rfl
    | some schema =>
        have kept : Selection.projectMembers (withoutPrivate []) schema = [] :=
          Selection.projectMembers_nil schema
        simp only [kept]
        rfl
  rcases run_store_of_replaceable plain_nil (Store.replaceable_of_string readable) with
    ⟨revision, run⟩
  have saved : (collection.save (.object [("id", .string id)])).run desk = (.ok id, { desk with
      store := desk.store.place (collection.config.privateId id)
        (.object (stored collection.config id [] revision)) }) := by
    change (collection.saveAs (some id) []).run desk = _
    simp only [saveAs, nothing, run_bind, run_lookUp, run]
  use revision
  rw [deskAfter, deskAfter, run_perform_save, saved]

/-- Whether no run of saves and deletes through one collection changes an answer of another
one, wherever both were set up. -/
def Isolated (first second : Collection) : Prop :=
  ∀ desk : Desk Store, Initialised first desk.store → Initialised second desk.store →
    ∀ actions, (∀ action ∈ actions, action.Writes) → ∀ query minted,
      ((second.find query).run ⟨(first.deskAfter desk actions).store, minted⟩).1 =
        ((second.find query).run (⟨desk.store, minted⟩ : Desk Store)).1

/-- A run that writes nothing under the keys of another collection changes none of its
answers. -/
theorem answer_deskAfter (reached : desk.store.Reached) {actions : List Action}
    (writes : ∀ action ∈ actions, action.Writes)
    (apart : ∀ id ∈ first.written desk actions, ¬ second.config.Claims (first.config.privateId id))
    (query : Query) (minted : Nat) :
    ((second.find query).run ⟨(first.deskAfter desk actions).store, minted⟩).1 =
      ((second.find query).run (⟨desk.store, minted⟩ : Desk Store)).1 := by
  apply answer_congr _ reached.keyed (reached_deskAfter reached writes).keyed
  intro key claimed
  apply current?_deskAfter writes
  rintro id member rfl
  exact apart id member claimed

theorem Serves.fst_run_find (serves : Serves collection store) (query : Query) (minted : Nat) :
    ((collection.find query).run (⟨store, minted⟩ : Desk Store)).1 =
      collection.answer store query :=
  congrArg Prod.fst (@run_find collection ⟨store, minted⟩ serves query)

theorem answer_byId (collection : Collection) (store : Store) (id : String) :
    collection.answer store (Query.byId id) =
      match collection.seen? store id with
      | some document => .ok (.document document)
      | none => .error (collection.notFound id) := rfl

/-- A document that is stored under a key of another collection is found there. -/
theorem exists_answer_place {id other revision : String}
    (key : first.config.privateId id = second.config.privateId other) :
    ∃ found, second.answer (store.place (first.config.privateId id)
      (.object (stored first.config id [] revision))) (Query.byId other) = .ok found := by
  have carries : (Json.object (stored first.config id [] revision)).stringMember? idMember =
      some (second.config.privateId other) := by
    rw [← key]
    exact key_stored plain_nil
  have seen : second.seen? (store.place (first.config.privateId id)
      (.object (stored first.config id [] revision))) other =
        some (.object (("id", .string other) ::
          shownMembers (.object (stored first.config id [] revision)))) := by
    rw [seen?, ← key, Store.live?_place_self _ _ (isDeleted_stored plain_nil)]
    exact published?_eq_some_iff.mpr ⟨other, carries, rfl⟩
  exact ⟨_, by rw [answer_byId, seen]⟩

theorem viewStart?_stored_nil (config : CollectionConfig) (id revision : String) :
    (Json.object (stored config id [] revision)).viewStart? findAllView = none := by
  rw [Json.viewStart?, pointerSteps_findAll]
  rfl

/-- If a collection is isolated from another one, an entry with nothing but an id that is saved
through it changes no answer of the other one. -/
theorem exists_place_of_isolated (isolated : Isolated first second)
    (firstInitialised : Initialised first desk.store)
    (secondInitialised : Initialised second desk.store) {id : String}
    (readable : ∀ document, desk.store.live? (first.config.privateId id) = some document →
      ∃ revision, document.member? revisionMember = some (.string revision)) :
    ∃ revision, (desk.store.place (first.config.privateId id)
        (.object (stored first.config id [] revision))).Keyed ∧
      ∀ query minted,
        ((second.find query).run (⟨desk.store.place (first.config.privateId id)
            (.object (stored first.config id [] revision)), minted⟩ : Desk Store)).1 =
          ((second.find query).run (⟨desk.store, minted⟩ : Desk Store)).1 := by
  rcases exists_run_save_bare readable with ⟨revision, saved⟩
  have writes : ∀ action ∈ [Action.save (.object [("id", .string id)])], action.Writes := by
    simp [Action.Writes]
  have reached := @reached_deskAfter first desk firstInitialised.reached _ writes
  have unchanged := isolated desk firstInitialised secondInitialised _ writes
  rw [saved] at reached unchanged
  exact ⟨revision, reached.keyed, unchanged⟩

section Interference

variable (different : first.config.name ≠ second.config.name) {id : String}
include different

/-- A collection is not isolated from another one whose documents can stand under the same
key: what is saved through one of them shows up among the documents of the other one. -/
theorem not_isolated_of_shared_key {other : String}
    (key : first.config.privateId id = second.config.privateId other) :
    ¬ Isolated first second := by
  intro isolated
  rcases exists_both_initialised different with ⟨desk, firstInitialised, secondInitialised, vacant⟩
  have beside : first.config.privateId id ≠ second.config.designId := by
    rw [key]
    exact second.config.privateId_ne_designId other
  have free : desk.store.live? (first.config.privateId id) = none := by
    rw [Store.live?, vacant _ (first.config.privateId_ne_designId id) beside]
    rfl
  have readable : ∀ document, desk.store.live? (first.config.privateId id) = some document →
      ∃ revision, document.member? revisionMember = some (.string revision) := by
    intro document alive
    rw [free] at alive
    contradiction
  rcases exists_place_of_isolated isolated firstInitialised secondInitialised readable with
    ⟨revision, keyed, same⟩
  have unchanged := same (Query.byId other) 0
  have serves : Serves second (desk.store.place (first.config.privateId id)
      (.object (stored first.config id [] revision))) := by
    constructor
    · intro id document alive
      exact keyed (Store.live?_eq_some_iff.mp alive).1
    · rw [Store.current?_place_of_ne beside.symm]
      exact secondInitialised.declared
  have unseen : second.seen? desk.store other = none := by
    rw [seen?, ← key, free]
    rfl
  rcases exists_answer_place key with ⟨found, answered⟩
  rw [serves.fst_run_find, secondInitialised.serves.fst_run_find, answered, answer_byId,
    unseen] at unchanged
  cases unchanged

/-- A collection is not isolated from another one whose design document stands under one of its
keys: what is saved through it takes the place of the design document. -/
theorem not_isolated_of_shared_design
    (design : first.config.privateId id = second.config.designId) : ¬ Isolated first second := by
  intro isolated
  rcases exists_both_initialised different with ⟨desk, firstInitialised, secondInitialised, _⟩
  rcases secondInitialised.declared with ⟨declaredRevision, declared⟩
  have readable : ∀ document, desk.store.live? (first.config.privateId id) = some document →
      ∃ revision, document.member? revisionMember = some (.string revision) := by
    intro document alive
    have same := (Store.live?_eq_some_iff.mp alive).1
    rw [design, declared, Option.some.injEq] at same
    exact ⟨declaredRevision, by rw [← same]; rfl⟩
  rcases exists_place_of_isolated isolated firstInitialised secondInitialised readable with
    ⟨revision, keyed, same⟩
  have unchanged := same Query.all 0
  have alive : (desk.store.place (first.config.privateId id)
      (.object (stored first.config id [] revision))).live? second.config.designId =
        some (.object (stored first.config id [] revision)) := by
    rw [← design]
    exact Store.live?_place_self _ _ (isDeleted_stored plain_nil)
  have reads : Query.all.Reads none := rfl
  have later : (second.find Query.all).run (⟨desk.store.place (first.config.privateId id)
      (.object (stored first.config id [] revision)), 0⟩ : Desk Store) = _ :=
    run_find_of_keyed keyed reads
  rw [later, secondInitialised.serves.fst_run_find] at unchanged
  simp only [answerThrough, alive, viewStart?_stored_nil] at unchanged
  cases unchanged

theorem not_isolated_of_claims (claimed : second.config.Claims (first.config.privateId id)) :
    ¬ Isolated first second := by
  rcases claimed with starts | design
  · rcases exists_eq_append_of_startsWith starts with ⟨other, key⟩
    exact not_isolated_of_shared_key different key
  · exact not_isolated_of_shared_design different design

end Interference

/-- Collections that share a store are isolated as far as their names keep them apart.  A run
of saves and deletes through one collection changes no answer of another one as long as none
of the ids that it acknowledges makes a key that the other one reads.  There is no such id,
so that no run at all changes an answer, exactly when neither name starts with the other one
and a hyphen and the key of the other design document does not start so either. -/
theorem isolated_by_names (different : first.config.name ≠ second.config.name) :
    (∀ (desk : Desk Store) actions, desk.store.Reached →
      (∀ action ∈ actions, action.Writes) →
      (∀ id ∈ first.written desk actions, ¬ second.config.Claims (first.config.privateId id)) →
      ∀ query minted,
        ((second.find query).run ⟨(first.deskAfter desk actions).store, minted⟩).1 =
          ((second.find query).run (⟨desk.store, minted⟩ : Desk Store)).1) ∧
    (Isolated first second ↔
      ¬ startsWith second.config.keyStart first.config.name ∧
      ¬ startsWith first.config.keyStart second.config.name ∧
      ¬ startsWith first.config.keyStart second.config.designId) := by
  constructor
  · intro desk actions reached writes apart
    exact answer_deskAfter reached writes apart
  · rw [← not_or, ← not_or, ← CollectionConfig.exists_claims_iff different]
    constructor
    · rintro isolated ⟨id, claimed⟩
      exact not_isolated_of_claims different claimed isolated
    · intro apart desk initialised _ actions writes
      apply answer_deskAfter initialised.reached writes
      intro id _ claimed
      exact apart ⟨id, claimed⟩

/-- A collection of cats that are called Tom. -/
def tomcats : Collection := ⟨{ name := "cat-tom" }, fun _ _ => "new"⟩

/-- A collection of dogs. -/
def dogs : Collection := ⟨{ name := "dog" }, fun _ _ => "new"⟩

/-- Another cat does not show up among the cats that are called Tom, and no cat at all among
the dogs. -/
theorem isolated_by_names_cats :
    catCollection.config.name ≠ tomcats.config.name ∧
    catCollection.written ⟨cats, 0⟩ [.save (.object [("id", .string "ben")])] = ["ben"] ∧
    ((tomcats.find Query.all).run
        ⟨(catCollection.deskAfter ⟨cats, 0⟩
          [.save (.object [("id", .string "ben")])]).store, 0⟩).1 =
      ((tomcats.find Query.all).run (⟨cats, 0⟩ : Desk Store)).1 ∧
    Isolated catCollection dogs := by
  have reached : cats.Reached := ((Store.Reached.empty.restore _).restore _).restore _
  have different : catCollection.config.name ≠ tomcats.config.name := by decide
  have ids : catCollection.written ⟨cats, 0⟩ [.save (.object [("id", .string "ben")])] = ["ben"] :=
    rfl
  have apart : ∀ id ∈ catCollection.written ⟨cats, 0⟩ [.save (.object [("id", .string "ben")])],
      ¬ tomcats.config.Claims (catCollection.config.privateId id) := by
    rw [ids]
    simp only [List.mem_singleton, forall_eq]
    rintro (starts | design)
    · exact absurd starts (by decide)
    · exact absurd design (by decide)
  have writes : ∀ action ∈ [Action.save (.object [("id", .string "ben")])], action.Writes := by
    simp [Action.Writes]
  have unseen := (isolated_by_names different).1 ⟨cats, 0⟩ _ reached writes apart Query.all 0
  have unrelated : catCollection.config.name ≠ dogs.config.name := by decide
  have isolated := (isolated_by_names unrelated).2.mpr ⟨by decide, by decide, by decide⟩
  exact ⟨different, ids, unseen, isolated⟩

/-- What a collection and another one whose name goes on behind a hyphen work on, once both
are set up. -/
def hyphenated : Desk Store := ((tomcats.prepare).run catCollection.prepared).2

/-- A cat that is called Tom is listed among all cats, where both collections were set up. -/
theorem hyphenated_not_isolated :
    Initialised tomcats hyphenated.store ∧ Initialised catCollection hyphenated.store ∧
    tomcats.config.name ≠ catCollection.config.name ∧
    ((catCollection.find Query.all).run (⟨hyphenated.store, 0⟩ : Desk Store)).1 = .ok (.ids []) ∧
    ((catCollection.find Query.all).run (⟨(tomcats.deskAfter hyphenated
      [.save (.object [("id", .string "x")])]).store, 0⟩ : Desk Store)).1 =
        .ok (.ids ["tom-x"]) := by
  have before := initialised_prepared catCollection
  have prepared : (tomcats.prepare).run catCollection.prepared = (.ok (), hyphenated) := rfl
  have designs : tomcats.config.designId ≠ catCollection.config.designId := by decide
  rcases exists_insert_of_prepare prepared with ⟨document, ack, written, _⟩
  exact ⟨.prepare before.reached prepared, before.insert designs written, by decide, rfl, rfl⟩

end Collection

end Folio

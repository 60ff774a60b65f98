import Folio.Proofs.Collection.Forgetful

/-!
# Operations over a store with faults

An operation reads before it writes, and a write is the last call that it makes.  So wherever
a call is made to fail, nothing is left behind, and an operation that succeeds has changed at
most the key that it answers for.  A fault is answered as it is.  Only the fault that there is
no document is taken at its word: the operation goes on as over a store that finds nothing.
-/

namespace Folio

namespace Session

variable {α β : Type}

/-! ## What becomes of faults -/

/-- A fault is still pending, or it is spent and dealt with. -/
def Settled (before after : Option StoreError) (dealt : StoreError → Prop) : Prop :=
  after = before ∨ ∃ error, before = some error ∧ after = none ∧ dealt error

/-- An answer is the error of a store. -/
def Tells (answer : Except QueryError α) (error : StoreError) : Prop :=
  answer = .error (.store error)

/-- The key that an answer puts something under: none if it is a refusal. -/
def written (place : α → Option String) : Except QueryError α → Option String
  | .ok value => place value
  | .error _ => none

/-- What is left of a store with faults when an answer is given: every key but that of the
answer holds what it held, and each fault that is spent is told, but for those from looking a
document up that are forgiven. -/
structure Leaves (place : α → Option String) (forgives : StoreError → Prop)
    (before : FaultyStore) (answer : Except QueryError α) (after : FaultyStore) : Prop where
  elsewhere (key : String) (apart : written place answer ≠ some key) :
    after.store.current? key = before.store.current? key
  get : Settled before.pending.get after.pending.get fun error =>
    Tells answer error ∨ forgives error
  insert : Settled before.pending.insert after.pending.insert (Tells answer)
  view : Settled before.pending.view after.pending.view (Tells answer)

/-- A session leaves of every store what its answer tells. -/
def Contained (session : Session FaultyStore α) (place : α → Option String)
    (forgives : StoreError → Prop) : Prop :=
  ∀ desk, Leaves place forgives desk.store (session.run desk).1 (session.run desk).2.store

namespace Settled

variable {before between after : Option StoreError} {dealt dealt' : StoreError → Prop}

theorem same (fault : Option StoreError) (dealt : StoreError → Prop) : Settled fault fault dealt :=
  .inl rfl

theorem spent (error : StoreError) (told : dealt error) : Settled (some error) none dealt :=
  .inr ⟨error, rfl, rfl, told⟩

theorem mono (settled : Settled before after dealt) (weaker : ∀ error, dealt error → dealt' error) :
    Settled before after dealt' := by
  rcases settled with same | ⟨error, pending, spent, told⟩
  · exact .inl same
  · exact .inr ⟨error, pending, spent, weaker error told⟩

/-- A fault that is spent stays spent. -/
theorem trans (first : Settled before between dealt) (second : Settled between after dealt) :
    Settled before after dealt := by
  rcases first with rfl | ⟨error, rfl, rfl, told⟩
  · exact second
  · rcases second with rfl | ⟨_, contrary, _⟩
    · exact .spent error told
    · contradiction

end Settled

namespace Leaves

variable {place : α → Option String} {forgives : StoreError → Prop}
  {before between after : FaultyStore}

/-- Nothing has happened. -/
theorem same (place : α → Option String) (forgives : StoreError → Prop) (store : FaultyStore)
    (answer : Except QueryError α) : Leaves place forgives store answer store where
  elsewhere _ _ := rfl
  get := .same _ _
  insert := .same _ _
  view := .same _ _

theorem get_spent {error : StoreError} {answer : Except QueryError α}
    (pending : before.pending.get = some error) (told : Tells answer error ∨ forgives error) :
    Leaves place forgives before answer { before with pending.get := none } where
  elsewhere _ _ := rfl
  get := pending ▸ .spent error told
  insert := .same _ _
  view := .same _ _

theorem insert_spent {error : StoreError} (pending : before.pending.insert = some error) :
    Leaves place forgives before (.error (.store error)) { before with pending.insert := none } where
  elsewhere _ _ := rfl
  get := .same _ _
  insert := pending ▸ .spent error rfl
  view := .same _ _

theorem view_spent {error : StoreError} (pending : before.pending.view = some error) :
    Leaves place forgives before (.error (.store error)) { before with pending.view := none } where
  elsewhere _ _ := rfl
  get := .same _ _
  insert := .same _ _
  view := pending ▸ .spent error rfl

/-- A refusal is passed on. -/
theorem refused {error : QueryError} {place' : β → Option String}
    (leaves : Leaves place forgives before (.error error) after) :
    Leaves place' forgives before (.error error : Except QueryError β) after := by
  have passed (fault : StoreError) (told : Tells (.error error : Except QueryError α) fault) :
      Tells (.error error : Except QueryError β) fault := by
    cases told
    rfl
  constructor
  case elsewhere => exact fun key _ => leaves.elsewhere key nofun
  case get => exact leaves.get.mono fun fault => .imp_left (passed fault)
  case insert => exact leaves.insert.mono passed
  case view => exact leaves.view.mono passed

/-- After an answer that puts nothing under any key a session goes on. -/
theorem trans {value : α} {answer : Except QueryError β} {place : β → Option String}
    (first : Leaves (fun _ => none) forgives before (.ok value) between)
    (second : Leaves place forgives between answer after) :
    Leaves place forgives before answer after := by
  have untold (fault : StoreError) (told : Tells (.ok value) fault) : Tells answer fault :=
    nomatch told
  constructor
  case elsewhere =>
    intro key apart
    exact (second.elsewhere key apart).trans (first.elsewhere key nofun)
  case get => exact (first.get.mono fun fault => .imp_left (untold fault)).trans second.get
  case insert => exact (first.insert.mono untold).trans second.insert
  case view => exact (first.view.mono untold).trans second.view

/-- What is made of an answer is told in its place. -/
theorem map {answer : Except QueryError α} {make : α → β} {place' : β → Option String}
    (leaves : Leaves place forgives before answer after)
    (follows : ∀ value, place' (make value) = place value) :
    Leaves place' forgives before (answer.map make) after := by
  cases answer with
  | error error => exact leaves.refused
  | ok value =>
      have untold (fault : StoreError) (told : Tells (.ok value) fault) :
          Tells (Except.ok value |>.map make) fault :=
        nomatch told
      constructor
      case elsewhere =>
        intro key apart
        apply leaves.elsewhere key
        rw [written, ← follows]
        exact apart
      case get => exact leaves.get.mono fun fault => .imp_left (untold fault)
      case insert => exact leaves.insert.mono untold
      case view => exact leaves.view.mono untold

end Leaves

/-! ## Sessions made of calls -/

section Calls

variable {session : Session FaultyStore α} {rest : α → Session FaultyStore β}
  {place : α → Option String} {forgives : StoreError → Prop}

theorem contained_pure (value : α) (place : α → Option String) :
    Contained (pure value) place forgives :=
  fun desk => .same place forgives desk.store (.ok value)

theorem contained_refuse (error : QueryError) (place : α → Option String) :
    Contained (refuse error) place forgives :=
  fun desk => .same place forgives desk.store (.error error)

/-- What follows on a session that writes nothing decides what is left. -/
theorem Contained.bind {place : β → Option String}
    (first : Contained session (fun _ => none) forgives)
    (next : ∀ value, Contained (rest value) place forgives) :
    Contained (session >>= rest) place forgives := by
  intro desk
  have start := first desk
  rw [run_bind]
  rcases outcome : session.run desk with ⟨error | value, after⟩
  · rw [outcome] at start
    exact start.refused
  · rw [outcome] at start
    exact start.trans (next value after)

theorem Contained.map {make : α → β} {place' : β → Option String}
    (contained : Contained session place forgives)
    (follows : ∀ value, place' (make value) = place value) :
    Contained (session >>= fun value => pure (make value)) place' forgives := by
  intro desk
  rw [run_bind_pure]
  exact (contained desk).map follows

theorem contained_mintId (mint : Nat → Json → String) (document : Json) :
    Contained (mintId mint document) (fun _ => none) forgives :=
  fun desk => .same (fun _ => none) forgives desk.store (.ok (mint desk.minted document))

/-- Looking a document up writes nothing.  That there is none is no refusal. -/
theorem contained_lookUp (key : String) (missing : ∀ key, forgives (.notFound key)) :
    Contained (lookUp key) (fun _ => none) forgives := by
  intro desk
  change Leaves _ _ _ (lookUp key desk).1 (lookUp key desk).2.store
  simp only [lookUp, DocumentStore.get]
  cases pending : desk.store.pending.get with
  | some error =>
      cases error with
      | notFound missed => exact .get_spent pending (.inr (missing missed))
      | conflict reason => exact .get_spent pending (.inl rfl)
      | io reason => exact .get_spent pending (.inl rfl)
      | internal reason => exact .get_spent pending (.inl rfl)
  | none =>
      rw [Store.get]
      cases desk.store.store.live? key <;> exact .same _ _ _ _

/-- A write changes nothing but its key, and nothing at all when it is refused. -/
theorem contained_write (document : Json) (key : String) :
    Contained (write document key) (fun _ => some key) forgives := by
  intro desk
  change Leaves _ _ _ (write document key desk).1 (write document key desk).2.store
  simp only [write, DocumentStore.insert]
  cases pending : desk.store.pending.insert with
  | some error => exact .insert_spent pending
  | none =>
      cases inserted : desk.store.store.insert document key with
      | error error => exact .same _ _ _ _
      | ok result =>
          rcases result with ⟨ack, next⟩
          rcases Store.exists_of_insert_eq_ok inserted with ⟨members, sequence, -, placed⟩
          constructor
          case elsewhere =>
            intro other apart
            have different : other ≠ key := fun same => apart (congrArg some same.symm)
            simp only [placed]
            exact Store.current?_place_of_ne different _
          case get => exact .same _ _
          case insert => exact .same _ _
          case view => exact .same _ _

/-- The rows of a view are read without a trace. -/
theorem contained_rows (collection view : String) (options : ViewOptions) :
    Contained (rows collection view options) (fun _ => none) forgives := by
  intro desk
  change Leaves _ _ _ (rows collection view options desk).1
    (rows collection view options desk).2.store
  simp only [rows, DocumentStore.view]
  cases failing : desk.store.pending.view with
  | some error => exact .view_spent failing
  | none =>
      cases given : desk.store.pending.rows with
      | some rows => exact ⟨fun _ _ => rfl, .same _ _, .same _ _, .inl failing.symm⟩
      | none => cases desk.store.store.view collection view options <;> exact .same _ _ _ _

theorem contained_wanted (query : Query) :
    Contained (Collection.wanted query) (fun _ => none) forgives := by
  unfold Collection.wanted
  split
  · exact contained_pure none _
  · split
    · exact contained_pure _ _
    · exact contained_refuse _ _

end Calls

end Session

namespace Collection

open Session

variable {collection : Collection} {forgives : StoreError → Prop}

/-! ## Operations -/

/-- The key that an action which succeeds puts something under. -/
def Action.place (collection : Collection) : Action → Reply → Option String
  | .prepare, _ => some collection.config.designId
  | .find _, _ => none
  | .save _, .saved id => some (collection.config.privateId id)
  | .save _, _ => none
  | .delete id, _ => some (collection.config.privateId id)

/-- The faults from looking a document up that an action takes at their word. -/
def Action.Forgives : Action → StoreError → Prop
  | .find _, _ => False
  | .prepare, error | .save _, error | .delete _, error => ∃ key, error = .notFound key

theorem contained_prepare (missing : ∀ key, forgives (.notFound key)) :
    Contained collection.prepare (fun _ => some collection.config.designId) forgives := by
  rw [prepare_eq]
  apply (contained_lookUp _ missing).bind
  intro existing
  exact (contained_write _ _).map fun _ => rfl

theorem contained_fetchOne (id : String) :
    Contained (collection.fetchOne id) (fun _ => none) forgives := by
  apply (contained_rows _ _ _).bind
  intro found
  split
  · exact contained_pure _ _
  · exact contained_refuse _ _

theorem contained_fetchAll : Contained collection.fetchAll (fun _ => none) forgives :=
  (contained_rows _ _ _).map fun _ => rfl

theorem contained_find (query : Query) :
    Contained (collection.find query) (fun _ => none) forgives := by
  apply (contained_wanted query).bind
  intro fields
  cases query.id with
  | some id => exact (contained_fetchOne id).map fun _ => rfl
  | none =>
      apply contained_fetchAll.bind
      intro documents
      dsimp only
      split <;> exact contained_pure _ _

theorem contained_store (members : Fields Json) (id : String) (revision : Option Json) :
    Contained (collection.store members id revision)
      (fun id => some (collection.config.privateId id)) forgives := by
  rw [store_eq]
  exact (contained_write _ _).map fun _ => rfl

theorem contained_save (missing : ∀ key, forgives (.notFound key)) (entry : Json) :
    Contained (collection.save entry) (fun id => some (collection.config.privateId id))
      forgives := by
  rcases save_cases FaultyStore collection entry with
    ⟨refusal, same⟩ | ⟨members, id, same⟩ | ⟨members, same⟩
  · rw [same]
    exact contained_refuse _ _
  · rw [same]
    apply (contained_lookUp _ missing).bind
    intro existing
    exact contained_store _ _ _
  · rw [same]
    apply (contained_mintId _ _).bind
    intro id
    exact contained_store _ _ _

theorem contained_delete (missing : ∀ key, forgives (.notFound key)) (id : String) :
    Contained (collection.delete id) (fun _ => some (collection.config.privateId id))
      forgives := by
  apply (contained_lookUp _ missing).bind
  intro existing
  cases existing with
  | none => exact contained_refuse _ _
  | some document => exact (contained_write _ _).map fun _ => rfl

theorem contained_perform (action : Action) :
    Contained (collection.perform action) (action.place collection) action.Forgives := by
  cases action with
  | prepare => exact (contained_prepare fun key => ⟨key, rfl⟩).map fun _ => rfl
  | find query => exact (contained_find query).map fun _ => rfl
  | save entry => exact (contained_save (fun key => ⟨key, rfl⟩) entry).map fun _ => rfl
  | delete id => exact (contained_delete (fun key => ⟨key, rfl⟩) id).map fun _ => rfl

/-- Over every store and with any faults pending, an action that fails leaves every key as it
was, and one that succeeds changes at most the key that it answers for.  A fault stays pending,
or it is spent and then answered as the error of the store, unless an action other than finding
looked a document up and the fault was that there is none.  The action then goes on as over a
store that finds nothing, where deleting is answered by the refusal that there is none. -/
theorem perform_leaves_no_trace (collection : Collection) (action : Action)
    (desk : Desk FaultyStore) :
    ∃ answer after, (collection.perform action).run desk = (answer, after) ∧
      (∀ error, answer = .error error →
        ∀ key, after.store.store.current? key = desk.store.store.current? key) ∧
      (∀ reply, answer = .ok reply → ∀ key, action.place collection reply ≠ some key →
        after.store.store.current? key = desk.store.store.current? key) ∧
      Settled desk.store.pending.view after.store.pending.view (Tells answer) ∧
      Settled desk.store.pending.insert after.store.pending.insert (Tells answer) ∧
      Settled desk.store.pending.get after.store.pending.get
        (fun error => Tells answer error ∨ action.Forgives error) ∧
      ∀ missed, desk.store.pending.get = some (.notFound missed) →
        (collection.perform action).run desk.forgetful = (answer, after.forgetful) ∧
        ∀ id, action = .delete id → answer = .error (.notFound collection.config.name id) := by
  have leaves : Leaves (action.place collection) action.Forgives desk.store
      ((collection.perform action).run desk).1 ((collection.perform action).run desk).2.store :=
    contained_perform action desk
  rcases outcome : (collection.perform action).run desk with ⟨answer, after⟩
  rw [outcome] at leaves
  refine ⟨answer, after, rfl, ?_, ?_, leaves.view, leaves.insert, leaves.get, ?_⟩
  · rintro error rfl key
    exact leaves.elsewhere key nofun
  · rintro reply rfl key apart
    exact leaves.elsewhere key apart
  · intro missed pending
    have misses (key : String) : Misses desk key := misses_of_notFound pending key
    constructor
    · have same : Same desk (collection.perform action) (collection.perform action) :=
        same_perform fun key _ => misses key
      rw [Same, outcome] at same
      exact same
    · rintro id rfl
      rw [perform, run_bind_pure, run_delete_of_misses (misses _)] at outcome
      cases outcome
      rfl

/-- A cat that is reported missing is not deleted. -/
theorem perform_leaves_no_trace_delete :
    let cats : Collection := { config := { name := "cat" }, mint := fun _ _ => "" }
    let desk : Desk FaultyStore :=
      { store := { store := Store.empty.restore (.object [(idMember, .string "cat-tom")])
                   pending := { get := some (.notFound "cat-tom") } } }
    ∃ after, (cats.perform (.delete "tom")).run desk = (.error (.notFound "cat" "tom"), after) ∧
      after.store.store.current? "cat-tom" = some (.object [(idMember, .string "cat-tom")]) := by
  intro cats desk
  rcases perform_leaves_no_trace cats (.delete "tom") desk with
    ⟨answer, after, run, failed, -, -, -, -, goes⟩
  have refused : answer = .error (.notFound "cat" "tom") := (goes "cat-tom" rfl).2 "tom" rfl
  rw [refused] at run
  use after, run
  rw [failed _ refused]
  rfl

end Collection

end Folio

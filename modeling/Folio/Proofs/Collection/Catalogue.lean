import Folio.Collection.Basic
import Folio.Proofs.Query.Reading
import Folio.Proofs.Store.Entries

/-!
# Catalogues

A catalogue is a plain map from public ids to the members of documents.  It knows
nothing of keys, revisions, tombstones or views.  What a collection answers is
worked out here from a catalogue alone, and from the ids that are minted.
-/

namespace Folio

/-- The members of a document bound to each public id, in ascending order. -/
structure Catalogue where
  entries : List (String × Fields Json)
  ascending : entries.Pairwise fun a b => a.1 < b.1

namespace Catalogue

/-- The catalogue that binds no id. -/
def empty : Catalogue := ⟨[], List.Pairwise.nil⟩

/-- The members bound to an id. -/
def lookUp? (catalogue : Catalogue) (id : String) : Option (Fields Json) :=
  Fields.get? catalogue.entries id

/-- Bind an id to members, in place of those that it was bound to. -/
def bind (catalogue : Catalogue) (id : String) (members : Fields Json) : Catalogue where
  entries := (catalogue.entries.filter fun entry => entry.1 < id) ++
    (id, members) :: catalogue.entries.filter fun entry => id < entry.1
  ascending := by
    rw [List.pairwise_append, List.pairwise_cons]
    refine ⟨catalogue.ascending.filter _, ⟨?_, catalogue.ascending.filter _⟩, ?_⟩
    · intro later member
      simpa using (List.mem_filter.mp member).2
    · intro earlier before later member
      have below : earlier.1 < id := by simpa using (List.mem_filter.mp before).2
      rcases List.mem_cons.mp member with rfl | behind
      · exact below
      · have above : id < later.1 := by simpa using (List.mem_filter.mp behind).2
        exact String.lt_trans below above

/-- Take the binding of an id away. -/
def unbind (catalogue : Catalogue) (id : String) : Catalogue where
  entries := catalogue.entries.filter fun entry => entry.1 ≠ id
  ascending := catalogue.ascending.filter _

/-- The document with an id and members as a reader sees it. -/
def document (entry : String × Fields Json) : Json :=
  .object (("id", .string entry.1) :: entry.2)

end Catalogue

namespace Collection

/-! ## What a collection is asked to do -/

/-- What can be asked of a collection. -/
inductive Action where
  | prepare
  | find (query : Query)
  | save (entry : Json)
  | delete (id : String)

/-- Whether the entry of an action is a proper value. -/
def Action.WellFormed : Action → Prop
  | .save entry => entry.WellFormed
  | _ => True

/-- What a collection replies. -/
inductive Reply where
  | done
  | found (found : Found)
  | saved (id : String)
deriving Inhabited, Repr

/-- Carry an action out against a store. -/
def perform {σ : Type} [DocumentStore σ] (collection : Collection) :
    Action → Session σ Reply
  | .prepare => do
      collection.prepare
      return .done
  | .find query => return .found (← collection.find query)
  | .save entry => return .saved (← collection.save entry)
  | .delete id => do
      collection.delete id
      return .done

/-- The answers to actions that are carried out one after the other. -/
def answers {σ : Type} [DocumentStore σ] (collection : Collection) (desk : Desk σ) :
    List Action → List (Except QueryError Reply)
  | [] => []
  | action :: rest =>
      let (answer, next) := (collection.perform action).run desk
      answer :: answers collection next rest

/-! ## What a catalogue answers -/

/-- What is answered of a document: the part that fields select, or all of it where no fields
are asked for. -/
def partOf (fields : Option Selection) (document : Json) : Json :=
  match fields with
  | some selection => selection.project document
  | none => document

theorem narrow_eq_partOf : narrow = partOf := rfl

/-- A catalogue, and how many ids were minted for it. -/
structure Register where
  catalogue : Catalogue
  minted : Nat := 0

namespace Register

/-- Answer a query from a catalogue. -/
def find (collection : Collection) (catalogue : Catalogue) (query : Query) :
    Except QueryError Found :=
  match query.reading with
  | .error refusal => .error (.malformed refusal)
  | .ok fields => answer fields
where
  /-- Answer a query whose fields have been read. -/
  answer (fields : Option Selection) : Except QueryError Found :=
    match query.id with
    | some id =>
        match catalogue.lookUp? id with
        | some members => .ok (.document (partOf fields (Catalogue.document (id, members))))
        | none => .error (.notFound collection.config.name id)
    | none =>
        let kept := catalogue.entries.filter fun entry =>
          query.filters.all (·.admits (Catalogue.document entry))
        if query.includeDocuments then
          .ok (.documents (kept.map fun entry => partOf fields (Catalogue.document entry)))
        else .ok (.ids (kept.map Prod.fst))

/-- What an entry holds beside its id and what belongs to the store. -/
def payload (members : Fields Json) : Fields Json :=
  privateMembers.foldl Fields.erase (Fields.erase members "id")

/-- Whether a payload is not empty and shares no name with the schema. -/
def isForeign (collection : Collection) (payload : Fields Json) : Bool :=
  match collection.config.schema with
  | none => false
  | some schema =>
      !payload.isEmpty && (Fields.names payload).all fun name => name ∉ Fields.names schema

/-- What is kept of a payload. -/
def kept (collection : Collection) (payload : Fields Json) : Fields Json :=
  match collection.config.schema with
  | none => payload
  | some schema => Selection.projectMembers payload schema

/-- The refusal for a document that does not fit: it tells the document and what it does not
fit. -/
def mismatch (collection : Collection) (document : Json) : QueryError :=
  match collection.config.schema with
  | some schema => .mismatch document.text schema.text
  | none => .mismatch document.text "an object"

theorem mismatch_eq (collection : Collection) (document : Json) :
    collection.mismatch document = mismatch collection document := by
  unfold Collection.mismatch mismatch
  cases collection.config.schema <;> rfl

/-- Bind a given id, or one that is minted and not bound yet, to a payload. -/
def enter (collection : Collection) (register : Register) (id : Option String)
    (payload : Fields Json) : Except QueryError Reply × Register :=
  if isForeign collection payload then
    (.error (mismatch collection (.object payload)), register)
  else
    let members := kept collection payload
    match id with
    | some id => (.ok (.saved id), { register with catalogue := register.catalogue.bind id members })
    | none =>
        let id := collection.mint register.minted (.object members)
        match register.catalogue.lookUp? id with
        | none => (.ok (.saved id), ⟨register.catalogue.bind id members, register.minted + 1⟩)
        | some _ =>
            (.error (.store (.conflict s!"{collection.config.privateId id}: document update conflict")),
              { register with minted := register.minted + 1 })

/-- Save an entry: an object whose id, if it has one, is a string or a number. -/
def save (collection : Collection) (register : Register) (entry : Json) :
    Except QueryError Reply × Register :=
  match entry with
  | .object members =>
      match Fields.get? members "id" with
      | none | some .null => enter collection register none (payload members)
      | some (.string id) => enter collection register (some id) (payload members)
      | some (.number value) => enter collection register (some value.text) (payload members)
      | some value =>
          (.error (mismatch collection
            (.object (Fields.put (Fields.erase members "id") "id" value))), register)
  | other => (.error (mismatch collection other), register)

/-- Carry an action out on a catalogue. -/
def step (collection : Collection) (register : Register) :
    Action → Except QueryError Reply × Register
  | .prepare => (.ok .done, register)
  | .find query => ((find collection register.catalogue query).map .found, register)
  | .save entry => save collection register entry
  | .delete id =>
      match register.catalogue.lookUp? id with
      | some _ => (.ok .done, { register with catalogue := register.catalogue.unbind id })
      | none => (.error (.notFound collection.config.name id), register)

/-- The answers of a catalogue to actions that are carried out one after the other. -/
def answers (collection : Collection) (register : Register) :
    List Action → List (Except QueryError Reply)
  | [] => []
  | action :: rest =>
      let (answer, next) := step collection register action
      answer :: answers collection next rest

end Register

end Collection

namespace Catalogue

/-! ## Looking ids up -/

variable {catalogue : Catalogue}

@[simp]
theorem lookUp?_empty (id : String) : empty.lookUp? id = none := rfl

/-- The entries of a catalogue are what is bound to the ids. -/
theorem mem_entries_iff {id : String} {members : Fields Json} :
    (id, members) ∈ catalogue.entries ↔ catalogue.lookUp? id = some members :=
  (Fields.get?_eq_some_iff_mem (nodup_names_of_ascending catalogue.ascending)).symm

/-- Binding an id leaves what the other ids are bound to. -/
theorem lookUp?_bind (catalogue : Catalogue) (id other : String) (members : Fields Json) :
    (catalogue.bind id members).lookUp? other =
      if other = id then some members else catalogue.lookUp? other := by
  ext found
  rw [← mem_entries_iff]
  simp only [bind, List.mem_append, List.mem_cons, List.mem_filter, decide_eq_true_eq,
    mem_entries_iff, Prod.mk.injEq]
  split
  · rename_i same
    subst same
    simp [eq_comm]
  · rename_i different
    have apart : other < id ∨ id < other := by
      by_cases below : other < id
      · exact .inl below
      · refine .inr (Decidable.byContradiction fun notAbove => different ?_)
        exact String.le_antisymm (String.not_lt.mp notAbove) (String.not_lt.mp below)
    constructor
    · rintro (⟨bound, _⟩ | ⟨same, _⟩ | ⟨bound, _⟩)
      · exact bound
      · exact absurd same different
      · exact bound
    · intro bound
      rcases apart with below | above
      · exact .inl ⟨bound, below⟩
      · exact .inr (.inr ⟨bound, above⟩)

theorem lookUp?_bind_self (catalogue : Catalogue) (id : String) (members : Fields Json) :
    (catalogue.bind id members).lookUp? id = some members := by
  rw [lookUp?_bind, if_pos rfl]

/-- Taking a binding away leaves what the other ids are bound to. -/
theorem lookUp?_unbind (catalogue : Catalogue) (id other : String) :
    (catalogue.unbind id).lookUp? other =
      if other = id then none else catalogue.lookUp? other := by
  ext found
  rw [← mem_entries_iff]
  simp only [unbind, List.mem_filter, decide_eq_true_eq, mem_entries_iff]
  split <;> simp_all

end Catalogue

end Folio

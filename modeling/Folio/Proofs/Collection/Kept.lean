import Folio.Proofs.Collection.Runs

/-!
# What a run keeps

What a collection stores of an entry is what the schema selects of its payload.  In every
run each document of the catalogue is such a selection from a payload, and therefore well
formed and without reserved names.
-/

namespace Folio

/-- Whether the schema, if there is one, is well formed. -/
def CollectionConfig.WellFormed (config : CollectionConfig) : Prop :=
  ∀ schema, config.schema = some schema → Selection.WellFormed schema

namespace Collection

variable {collection : Collection} {catalogue : Catalogue} {register : Register} {id : String}
  {members : Fields Json}

/-- Whether every document is what was kept of a payload. -/
def Admitted (collection : Collection) (catalogue : Catalogue) : Prop :=
  ∀ id members, catalogue.lookUp? id = some members → ∃ payload, Plain payload ∧
    (Json.object payload).WellFormed ∧ members = Register.kept collection payload

theorem wellFormed_payload (wellFormed : (Json.object members).WellFormed) :
    (Json.object (Register.payload members)).WellFormed := by
  iterate 4 apply Json.wellFormed_erase
  exact wellFormed

theorem wellFormed_kept (configured : collection.config.WellFormed) {payload : Fields Json}
    (formed : (Json.object payload).WellFormed) :
    (Json.object (Register.kept collection payload)).WellFormed := by
  unfold Register.kept
  cases hasSchema : collection.config.schema with
  | none => exact formed
  | some schema => exact Selection.wellFormed_project (configured schema hasSchema) ⟨_, rfl⟩ formed

theorem admitted_empty (collection : Collection) : Admitted collection Catalogue.empty := by
  intro id members bound
  rw [Catalogue.lookUp?_empty] at bound
  contradiction

/-- What is kept of one more payload may be bound. -/
theorem admitted_bind (admitted : Admitted collection catalogue) {payload : Fields Json}
    (plain : Plain payload) (wellFormed : (Json.object payload).WellFormed) (id : String) :
    Admitted collection (catalogue.bind id (Register.kept collection payload)) := by
  intro other members found
  rw [Catalogue.lookUp?_bind] at found
  split at found
  · cases found
    exact ⟨payload, plain, wellFormed, rfl⟩
  · exact admitted other members found

section Admitted

variable (admitted : Admitted collection register.catalogue)
include admitted

theorem admitted_enter (id : Option String) {payload : Fields Json} (plain : Plain payload)
    (wellFormed : (Json.object payload).WellFormed) :
    Admitted collection (Register.enter collection register id payload).2.catalogue := by
  have bound := admitted_bind admitted plain wellFormed
  unfold Register.enter
  split
  · exact admitted
  · cases id with
    | some id => exact bound id
    | none =>
        dsimp only
        split
        · exact bound _
        · exact admitted

/-- Actions on proper values leave documents that were kept of payloads. -/
theorem admitted_step {action : Action} (wellFormed : action.WellFormed) :
    Admitted collection (Register.step collection register action).2.catalogue := by
  cases action with
  | prepare => exact admitted
  | find query => exact admitted
  | save entry =>
      change Admitted collection (Register.save collection register entry).2.catalogue
      unfold Register.save
      split
      · rename_i members
        have entered (id : Option String) := admitted_enter admitted id
          (plain_payload wellFormed.1) (wellFormed_payload wellFormed)
        split
        · exact entered none
        · exact entered none
        · exact entered _
        · exact entered _
        · exact admitted
      · exact admitted
  | delete id =>
      rw [Register.step]
      split
      · intro other members found
        rw [Catalogue.lookUp?_unbind] at found
        split at found
        · contradiction
        · exact admitted other members found
      · exact admitted

theorem admitted_after {actions : List Action}
    (wellFormed : ∀ action ∈ actions, action.WellFormed) :
    Admitted collection (Register.after collection register actions).catalogue := by
  induction actions generalizing register with
  | nil => exact admitted
  | cons action rest ih =>
      rw [List.forall_mem_cons] at wellFormed
      exact ih (admitted_step admitted wellFormed.1) wellFormed.2

end Admitted

/-- In a run that starts where the collection was set up on the empty store, the store represents
a catalogue of what was kept of payloads. -/
theorem exists_represents_deskAfter (collection : Collection) {actions : List Action}
    (wellFormed : ∀ action ∈ actions, action.WellFormed) :
    ∃ catalogue,
      Represents collection (collection.deskAfter collection.prepared actions).store catalogue ∧
      Admitted collection catalogue := by
  have empty : Represents collection collection.prepared.store
      (⟨Catalogue.empty, collection.prepared.minted⟩ : Register).catalogue :=
    represents_prepared collection
  have none : Admitted collection
      (⟨Catalogue.empty, collection.prepared.minted⟩ : Register).catalogue :=
    admitted_empty collection
  exact ⟨_, represents_deskAfter empty rfl wellFormed, admitted_after none wellFormed⟩

/-! ## The documents of a catalogue -/

theorem plain_of_admitted (admitted : Admitted collection catalogue)
    (bound : catalogue.lookUp? id = some members) : Plain members := by
  rcases admitted id members bound with ⟨payload, plain, _, rfl⟩
  exact plain_kept collection plain

theorem wellFormed_of_admitted (admitted : Admitted collection catalogue)
    (configured : collection.config.WellFormed) {entry : String × Fields Json}
    (member : entry ∈ catalogue.entries) :
    (Json.object entry.2).WellFormed ∧ (Catalogue.document entry).WellFormed := by
  rcases entry with ⟨id, members⟩
  rcases admitted id members (Catalogue.mem_entries_iff.mp member) with
    ⟨payload, plain, formed, rfl⟩
  have kept := wellFormed_kept configured formed
  constructor
  · exact kept
  · rw [Json.WellFormed] at kept
    rw [Catalogue.document, Json.WellFormed, Fields.names_cons, List.nodup_cons,
      Json.WellFormedMembers]
    exact ⟨⟨(plain_kept collection plain).id_not_mem, kept.1⟩, trivial, kept.2⟩

end Collection

end Folio

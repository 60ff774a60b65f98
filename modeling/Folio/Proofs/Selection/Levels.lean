import Folio.Proofs.Selection.Projection
import Folio.Proofs.Selection.RoundTrip

/-!
# Names at every level

The selections that texts, JSON forms and added entries lead to are those that have, at
every level, distinct names that pass the check, and the names that pass it are those that
are read as themselves.
-/

namespace Folio.Selection

/-- The levels of a selection: the selection itself, and the levels of its groups. -/
inductive LevelOf : Selection → Selection → Prop
  | itself (selection : Selection) : LevelOf selection selection
  | inside {selection sub level : Selection} {name : String}
      (member : (name, .group sub) ∈ selection) (inner : LevelOf sub level) :
      LevelOf selection level

/-- What is left of a selection when an entry was to be added: it stays as it was if the name
is refused. -/
def afterInsert (selection : Selection) (name : String) (field : Field) : Selection :=
  match insert selection name field with
  | .ok next => next
  | .error _ => selection

/-- The selections that one comes by: by reading a text or a JSON form, by deserializing, and
by adding fields and groups, whether the names are accepted or refused. -/
inductive Obtained : Selection → Prop
  | empty : Obtained []
  | read {text : String} {selection : Selection} (found : read text = .ok selection) :
      Obtained selection
  | json {value : Json} {selection : Selection} (found : ofJson value = .ok selection) :
      Obtained selection
  | deserialized {value : Json} {selection : Selection}
      (found : deserialize value = .ok selection) : Obtained selection
  | leaf {selection : Selection} (obtained : Obtained selection) (name : String) :
      Obtained (afterInsert selection name .leaf)
  | group {selection sub : Selection} (obtained : Obtained selection) (inner : Obtained sub)
      (name : String) : Obtained (afterInsert selection name (.group sub))

variable {selection : Selection} {name : String}

/-! ## Levels -/

theorem WellFormed.of_mem_group {sub : Selection} (wellFormed : WellFormed selection)
    (member : (name, .group sub) ∈ selection) : WellFormed sub :=
  (entriesWellFormed_iff.mp wellFormed.2 _ member).2

theorem WellFormed.isName_of_mem_names (wellFormed : WellFormed selection)
    (member : name ∈ Fields.names selection) : IsName name := by
  rcases List.mem_map.mp member with ⟨entry, inside, rfl⟩
  exact (entriesWellFormed_iff.mp wellFormed.2 entry inside).1

theorem WellFormed.of_levelOf {level : Selection} (isLevel : LevelOf selection level)
    (wellFormed : WellFormed selection) : WellFormed level := by
  induction isLevel with
  | itself => exact wellFormed
  | inside member _ ih => exact ih (wellFormed.of_mem_group member)

/-- A selection is well formed if the names are at every level. -/
theorem wellFormed_of_levels
    (names : ∀ level, LevelOf selection level →
      (Fields.names level).Nodup ∧ ∀ name ∈ Fields.names level, IsName name) :
    WellFormed selection := by
  suffices general : ∀ field : Field, (∀ sub, field = .group sub → ∀ level, LevelOf sub level →
      (Fields.names level).Nodup ∧ ∀ name ∈ Fields.names level, IsName name) →
      FieldWellFormed field by
    exact general (.group selection) fun sub same => by
      cases same
      exact names
  intro field
  induction field using Field.induction_entries with
  | leaf =>
      intro _
      trivial
  | group sub ih =>
      intro names
      rcases names sub rfl sub (.itself sub) with ⟨distinct, areNames⟩
      refine ⟨distinct, entriesWellFormed_iff.mpr ?_⟩
      rintro ⟨name, field⟩ member
      refine ⟨areNames name (List.mem_map_of_mem (f := Prod.fst) member), ih _ member ?_⟩
      rintro inner rfl level isLevel
      exact names sub rfl level (.inside member isLevel)

/-- A selection is well formed if, at every level, the names are distinct and can be
expressed. -/
theorem wellFormed_iff_levels :
    WellFormed selection ↔ ∀ level, LevelOf selection level →
      (Fields.names level).Nodup ∧ ∀ name ∈ Fields.names level, IsName name := by
  refine ⟨?_, wellFormed_of_levels⟩
  intro wellFormed level isLevel
  have inner := wellFormed.of_levelOf isLevel
  exact ⟨inner.1, fun name member => inner.isName_of_mem_names member⟩

/-! ## Selections that one comes by -/

theorem afterInsert_cases (selection : Selection) (name : String) (field : Field) :
    insert selection name field = .ok (afterInsert selection name field) ∨
      afterInsert selection name field = selection := by
  unfold afterInsert
  cases added : insert selection name field with
  | ok next => exact .inl rfl
  | error refusal => exact .inr rfl

/-- Whatever one comes by is built, as a refused name changes nothing. -/
theorem Obtained.built (obtained : Obtained selection) : Built selection := by
  induction obtained with
  | empty => exact .empty
  | read found => exact .read found
  | json found => exact .json found
  | @deserialized value selection found =>
      rw [deserialize] at found
      cases form : ofJson value with
      | error refusal =>
          rw [form] at found
          contradiction
      | ok other =>
          rw [form] at found
          cases found
          exact .json form
  | @leaf selection _ name ih =>
      rcases afterInsert_cases selection name .leaf with added | same
      · exact .leaf ih added
      · rw [same]
        exact ih
  | @group selection sub _ _ name ih inner =>
      rcases afterInsert_cases selection name (.group sub) with added | same
      · exact .group ih inner added
      · rw [same]
        exact ih

theorem obtained_iff_wellFormed : Obtained selection ↔ WellFormed selection :=
  ⟨fun obtained => obtained.built.wellFormed, fun wellFormed => .read (read_text wellFormed)⟩

theorem read_eq_leaf_iff : read name = .ok [(name, .leaf)] ↔ IsName name := by
  constructor
  · intro found
    exact (wellFormed_of_read found).2.1
  · intro isName
    have wellFormedLeaf : FieldWellFormed .leaf := trivial
    have wellFormed : WellFormed [(name, .leaf)] := wellFormed_nil.put isName wellFormedLeaf
    have same : text [(name, .leaf)] = name := by
      rw [text, chars, Field.chars, List.append_nil, String.ofList_toList]
    have found := read_text wellFormed
    rwa [same] at found

/-- One comes by exactly the selections that have, at every level, distinct names that pass the
check, and a name passes it exactly when it is read as the field of that name. -/
theorem obtained_iff_names_checked :
    (∀ selection, Obtained selection ↔ ∀ level, LevelOf selection level →
      (Fields.names level).Nodup ∧ ∀ name ∈ Fields.names level, checkName name = .ok ()) ∧
    ∀ name, checkName name = .ok () ↔ read name = .ok [(name, .leaf)] := by
  constructor
  · intro selection
    simp only [checkName_eq_ok_iff]
    exact obtained_iff_wellFormed.trans wellFormed_iff_levels
  · intro name
    exact checkName_eq_ok_iff.trans read_eq_leaf_iff.symm

/-- The name inside a group that was added passes the check, and is read as itself; a name with
a blank in front is not, and leaves the selection as it was. -/
theorem obtained_group_names_checked :
    Obtained [("cats", .group [("a b", .leaf)])] ∧
    afterInsert [("cats", .group [("a b", .leaf)])] " a" .leaf =
      [("cats", .group [("a b", .leaf)])] ∧
    checkName "a b" = .ok () ∧ read "a b" = .ok [("a b", .leaf)] ∧
    read " a" ≠ .ok [(" a", .leaf)] := by
  have inner : Obtained [("a b", .leaf)] := Obtained.empty.leaf "a b"
  have whole : Obtained [("cats", .group [("a b", .leaf)])] := Obtained.empty.group inner "cats"
  have level : LevelOf [("cats", .group [("a b", .leaf)])] [("a b", .leaf)] :=
    .inside (List.mem_singleton_self _) (.itself _)
  have checked := ((obtained_iff_names_checked.1 _).mp whole _ level).2 "a b"
    (List.mem_singleton_self _)
  refine ⟨whole, rfl, checked, (obtained_iff_names_checked.2 "a b").mp checked, ?_⟩
  intro found
  have passed := (obtained_iff_names_checked.2 " a").mpr found
  contradiction

end Folio.Selection

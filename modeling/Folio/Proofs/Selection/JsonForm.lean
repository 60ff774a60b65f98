import Folio.Proofs.Attempt
import Folio.Proofs.Json.Equality
import Folio.Proofs.Selection.Projection
import Folio.Proofs.Selection.RoundTrip

/-!
# The forms of a selection

A selection has a text, a JSON form and a serialized form.  Whichever of the three is read
back gives the selection with the same entries in the same order at every level.  An object
is the JSON form of a selection exactly when, at every level, its names can be expressed and
its values are `true` or such objects, and it is the form of the selection that it is read
as.
-/

namespace Folio.Selection

/-- The values that a member of the JSON form of a selection can have: `true`, or an object
all of whose names pass the check and all of whose values are such again. -/
inductive IsForm : Json → Prop
  | leaf : IsForm (.bool true)
  | group {members : Fields Json} (named : ∀ entry ∈ members, checkName entry.1 = .ok ())
      (inner : ∀ entry ∈ members, IsForm entry.2) : IsForm (.object members)

/-! ## Writing -/

theorem names_entriesToJson (entries : List (String × Field)) :
    Fields.names (entriesToJson entries) = Fields.names entries := by
  induction entries with
  | nil => rfl
  | cons entry rest ih =>
      rcases entry with ⟨name, field⟩
      rw [entriesToJson, Fields.names_cons, ih, Fields.names_cons]

/-- Entries with new names are serialized to members behind the others, in their order. -/
theorem serializeEntries_eq {sofar : Fields Json} {entries : List (String × Field)}
    (distinct : (Fields.names sofar ++ Fields.names entries).Nodup)
    (inner : ∀ entry ∈ entries, serializeField entry.2 = fieldToJson entry.2) :
    serializeEntries sofar entries = sofar ++ entriesToJson entries := by
  induction entries generalizing sofar with
  | nil => simp [serializeEntries, entriesToJson]
  | cons entry rest ih =>
      rcases entry with ⟨name, field⟩
      rw [List.forall_mem_cons] at inner
      have absent : name ∉ Fields.names sofar := by
        intro member
        exact (List.nodup_append.mp distinct).2.2 name member name List.mem_cons_self rfl
      rw [serializeEntries, inner.1, Fields.put_of_not_mem absent, ih _ inner.2]
      · simp [entriesToJson]
      · simpa using distinct

theorem serializeField_eq {field : Field} (wellFormed : FieldWellFormed field) :
    serializeField field = fieldToJson field := by
  induction field using Field.induction_entries with
  | leaf => rfl
  | group sub ih =>
      rw [FieldWellFormed, entriesWellFormed_iff] at wellFormed
      rw [serializeField, fieldToJson, serializeEntries_eq (by simpa using wellFormed.1),
        List.nil_append]
      intro entry member
      exact ih entry member (wellFormed.2 entry member).2

theorem serialize_eq_toJson {selection : Selection} (wellFormed : WellFormed selection) :
    selection.serialize = selection.toJson :=
  serializeField_eq (fieldWellFormed_group wellFormed)

/-! ## Reading what was written -/

/-- Entries with new names are read back from their members behind the others, if that holds
for the field of each. -/
theorem ofMembers_entriesToJson {whole : Fields Json} {sofar : Selection}
    {entries : List (String × Field)}
    (distinct : (Fields.names sofar ++ Fields.names entries).Nodup)
    (named : ∀ entry ∈ entries, IsName entry.1)
    (inner : ∀ entry ∈ entries, ofMember whole entry.1 (fieldToJson entry.2) = .ok entry.2) :
    ofMembers whole sofar (entriesToJson entries) = .ok (sofar ++ entries) := by
  induction entries generalizing sofar with
  | nil => rw [entriesToJson, ofMembers, List.append_nil]
  | cons entry rest ih =>
      rcases entry with ⟨name, field⟩
      rw [List.forall_mem_cons] at named inner
      have absent : name ∉ Fields.names sofar := by
        intro member
        exact (List.nodup_append.mp distinct).2.2 name member name List.mem_cons_self rfl
      have added : insert sofar name field = .ok (sofar ++ [(name, field)]) :=
        insert_eq_ok_iff.mpr ⟨named.1, (Fields.put_of_not_mem absent field).symm⟩
      rw [entriesToJson, ofMembers, bind_eq_ok_iff]
      refine ⟨field, inner.1, ?_⟩
      rw [bind_eq_ok_iff]
      refine ⟨_, added, ?_⟩
      rw [ih _ named.2 inner.2]
      · simp
      · simpa using distinct

/-- A field is read back from its JSON form. -/
theorem ofMember_fieldToJson {field : Field} (wellFormed : FieldWellFormed field)
    (whole : Fields Json) (name : String) :
    ofMember whole name (fieldToJson field) = .ok field := by
  induction field using Field.induction_entries generalizing whole name with
  | leaf => rfl
  | group sub ih =>
      rw [FieldWellFormed, entriesWellFormed_iff] at wellFormed
      rw [fieldToJson, ofMember, map_eq_ok_iff]
      refine ⟨sub, ?_, rfl⟩
      apply ofMembers_entriesToJson
      · exact wellFormed.1
      · exact fun entry member => (wellFormed.2 entry member).1
      · exact fun entry member => ih entry member (wellFormed.2 entry member).2 _ _

/-- A selection is read back from its JSON form. -/
theorem ofJson_toJson {selection : Selection} (wellFormed : WellFormed selection) :
    ofJson selection.toJson = .ok selection := by
  rcases wellFormed with ⟨distinct, entries⟩
  rw [entriesWellFormed_iff] at entries
  apply ofMembers_entriesToJson
  · exact distinct
  · exact fun entry member => (entries entry member).1
  · exact fun entry member => ofMember_fieldToJson (entries entry member).2 _ _

/-! ## What can be read -/

/-- Members that are read as a selection have names that can be expressed and values that are
read as fields. -/
theorem forall_of_ofMembers {whole : Fields Json} {sofar selection : Selection}
    {members : List (String × Json)} (found : ofMembers whole sofar members = .ok selection) :
    ∀ entry ∈ members, IsName entry.1 ∧ ∃ field, ofMember whole entry.1 entry.2 = .ok field := by
  induction members generalizing sofar with
  | nil => exact List.forall_mem_nil _
  | cons entry rest ih =>
      rcases entry with ⟨name, value⟩
      rw [ofMembers, bind_eq_ok_iff] at found
      rcases found with ⟨field, read, found⟩
      rw [bind_eq_ok_iff] at found
      rcases found with ⟨extended, added, found⟩
      rw [List.forall_mem_cons]
      exact ⟨⟨(insert_eq_ok_iff.mp added).1, field, read⟩, ih found⟩

/-- A value that is read as a field has the shape of the JSON form of one. -/
theorem isForm_of_ofMember {whole : Fields Json} {name : String} {value : Json} {field : Field}
    (found : ofMember whole name value = .ok field) : IsForm value := by
  induction value using Json.induction_values generalizing whole name field with
  | null => contradiction
  | bool truth =>
      cases truth with
      | true => exact .leaf
      | false => contradiction
  | number number => contradiction
  | string text => contradiction
  | array items => contradiction
  | object members ih =>
      rw [ofMember, map_eq_ok_iff] at found
      rcases found with ⟨sub, found, rfl⟩
      have each := forall_of_ofMembers found
      constructor
      · exact fun entry member => checkName_eq_ok_iff.mpr (each entry member).1
      · intro entry member
        rcases (each entry member).2 with ⟨field, read⟩
        exact ih entry member read

theorem exists_entries_of_members {members : Fields Json}
    (named : ∀ entry ∈ members, IsName entry.1)
    (inner : ∀ entry ∈ members, ∃ field, FieldWellFormed field ∧ fieldToJson field = entry.2) :
    ∃ entries, EntriesWellFormed entries ∧ entriesToJson entries = members := by
  induction members with
  | nil => exact ⟨[], trivial, rfl⟩
  | cons entry rest ih =>
      rcases entry with ⟨name, value⟩
      rw [List.forall_mem_cons] at named inner
      rcases inner.1 with ⟨field, wellFormed, rfl⟩
      rcases ih named.2 inner.2 with ⟨entries, restFormed, rfl⟩
      exact ⟨(name, field) :: entries, ⟨named.1, wellFormed, restFormed⟩, rfl⟩

/-- A value with the shape of the JSON form of a field, in which no object repeats a name, is
the form of a field. -/
theorem exists_field_of_isForm {value : Json} (isForm : IsForm value)
    (formed : value.WellFormed) : ∃ field, FieldWellFormed field ∧ fieldToJson field = value := by
  induction isForm with
  | leaf => exact ⟨.leaf, trivial, rfl⟩
  | @group members named inner ih =>
      rw [Json.WellFormed, Json.wellFormedMembers_iff] at formed
      rcases exists_entries_of_members
        (fun entry member => checkName_eq_ok_iff.mp (named entry member))
        (fun entry member => ih entry member (formed.2 entry member)) with
        ⟨entries, wellFormed, rfl⟩
      rw [names_entriesToJson] at formed
      exact ⟨.group entries, ⟨formed.1, wellFormed⟩, rfl⟩

/-- An object with the shape of a JSON form, in which no object repeats a name, is the form of
a selection. -/
theorem exists_selection_of_isForm {members : Fields Json} (isForm : IsForm (.object members))
    (formed : (Json.object members).WellFormed) :
    ∃ selection, WellFormed selection ∧ selection.toJson = .object members := by
  rcases exists_field_of_isForm isForm formed with ⟨field, wellFormed, same⟩
  cases field with
  | leaf => contradiction
  | group sub => exact ⟨sub, wellFormed, same⟩

/-- Selections that are built are read back from their JSON form, from their text as a JSON
string and from what they are serialized as.  An object can be read as a selection exactly when
at every level all names pass the check and all values are `true` or such objects, and it is
the JSON form of the selection that it is read as. -/
theorem forms_agree :
    (∀ selection, Built selection → ofJson selection.toJson = .ok selection ∧
      ofJson (.string selection.text) = .ok selection ∧
      deserialize selection.serialize = .ok selection) ∧
    ∀ members : Fields Json, (Json.object members).WellFormed →
      ((∃ selection, ofJson (.object members) = .ok selection) ↔ IsForm (.object members)) ∧
      ∀ selection, ofJson (.object members) = .ok selection →
        selection.toJson = .object members := by
  constructor
  · intro selection built
    have wellFormed := built.wellFormed
    have back := ofJson_toJson wellFormed
    refine ⟨back, read_text wellFormed, ?_⟩
    rw [serialize_eq_toJson wellFormed, deserialize, back]
    rfl
  · intro members formed
    have isForm {selection : Selection} (found : ofJson (.object members) = .ok selection) :
        IsForm (.object members) := by
      have read : ofMember [] "" (.object members) = .ok (.group selection) :=
        map_eq_ok_iff.mpr ⟨selection, found, rfl⟩
      exact isForm_of_ofMember read
    constructor
    · constructor
      · rintro ⟨selection, found⟩
        exact isForm found
      · intro shape
        rcases exists_selection_of_isForm shape formed with ⟨selection, wellFormed, same⟩
        exact ⟨selection, same ▸ ofJson_toJson wellFormed⟩
    · intro selection found
      rcases exists_selection_of_isForm (isForm found) formed with ⟨other, wellFormed, same⟩
      rw [← same, ofJson_toJson wellFormed] at found
      exact Except.ok.inj found ▸ same

/-- A name with a blank inside and an empty group are read back from all three forms, and a
name with a comma is refused inside a group. -/
theorem forms_agree_emptyGroup :
    ofJson (.object [("a b", .bool true), ("tags", .object [])]) =
        .ok [("a b", .leaf), ("tags", .group [])] ∧
      ofJson (.string "a b,tags:()") = .ok [("a b", .leaf), ("tags", .group [])] ∧
      deserialize (.object [("a b", .bool true), ("tags", .object [])]) =
        .ok [("a b", .leaf), ("tags", .group [])] ∧
      ¬ ∃ selection, ofJson (.object [("tags", .object [("a,b", .bool true)])]) =
        .ok selection := by
  have found : read " a b ,tags : ()" = .ok [("a b", .leaf), ("tags", .group [])] := rfl
  rcases forms_agree.1 _ (.read found) with ⟨form, text, serialized⟩
  refine ⟨form, text, serialized, ?_⟩
  have formed : (Json.object [("tags", .object [("a,b", .bool true)])]).WellFormed := by
    simp [Json.WellFormed, Json.WellFormedMembers]
  rw [(forms_agree.2 _ formed).1]
  intro isForm
  cases isForm with
  | group _ inner =>
      cases inner _ List.mem_cons_self with
      | group named _ =>
          have refused := named _ List.mem_cons_self
          contradiction

end Folio.Selection

import Folio.Filter.Basic
import Folio.Proofs.Json.Equality
import Folio.Proofs.Selection.Names
import Folio.Selection.Projection

/-!
# Projections of projections

What is projected again is not always left as it is: an item of an array of which a group
takes nothing becomes an empty object, and empty objects are left out of the next
projection.  This is the only way in which a projection loses anything when it is projected
again, and it happens once: the second projection is stable.
-/

namespace Folio

/-- What holds for a field that is taken whole, and for a group if it holds for the fields
in it, holds for every field. -/
@[elab_as_elim]
theorem Field.induction_entries {motive : Field → Prop} (leaf : motive .leaf)
    (group : ∀ sub : List (String × Field), (∀ entry ∈ sub, motive entry.2) →
      motive (.group sub)) : (field : Field) → motive field
  | .leaf => leaf
  | .group sub => group sub fun entry _ => induction_entries leaf group entry.2
termination_by field => sizeOf field
decreasing_by
  rename_i member
  have below := List.sizeOf_lt_of_mem member
  have inner : sizeOf entry.2 < sizeOf entry := by
    rw [Prod.mk.sizeOf_spec]
    omega
  simp only [Field.group.sizeOf_spec]
  omega

namespace Json

mutual

/-- Whether a value is another one in which arrays have lost some of the empty objects among
their items. -/
inductive Thins : Json → Json → Prop
  | refl (value : Json) : Thins value value
  | array {items others : List Json} (thinned : ThinsItems items others) :
      Thins (.array items) (.array others)
  | object {members others : Fields Json} (thinned : ThinsMembers members others) :
      Thins (.object members) (.object others)

/-- Whether items are others some of which were empty objects and are gone. -/
inductive ThinsItems : List Json → List Json → Prop
  | nil : ThinsItems [] []
  | drop {items others : List Json} (thinned : ThinsItems items others) :
      ThinsItems (.object [] :: items) others
  | keep {item other : Json} {items others : List Json} (thins : Thins item other)
      (thinned : ThinsItems items others) : ThinsItems (item :: items) (other :: others)

/-- Whether members are others with the same names. -/
inductive ThinsMembers : Fields Json → Fields Json → Prop
  | nil : ThinsMembers [] []
  | cons {name : String} {value other : Json} {members others : Fields Json}
      (thins : Thins value other) (thinned : ThinsMembers members others) :
      ThinsMembers ((name, value) :: members) ((name, other) :: others)

end

theorem eq_of_isEmptyObject {value : Json} (empty : value.isEmptyObject = true) :
    value = .object [] := by
  unfold isEmptyObject at empty
  split at empty
  · rfl
  · contradiction

/-- Items without the empty objects among them are thinned if each of them is. -/
theorem thinsItems_filter {items : List Json} {change : Json → Json}
    (thins : ∀ item ∈ items, item.Thins (change item)) :
    ThinsItems items ((items.filter fun item => !item.isEmptyObject).map change) := by
  induction items with
  | nil => exact .nil
  | cons item rest ih =>
      rw [List.forall_mem_cons] at thins
      cases empty : item.isEmptyObject with
      | true =>
          rw [List.filter_cons_of_neg (by simp [empty]), eq_of_isEmptyObject empty]
          exact .drop (ih thins.2)
      | false =>
          rw [List.filter_cons_of_pos (by simp [empty]), List.map_cons]
          exact .keep thins.1 (ih thins.2)

end Json

namespace Selection

/-! ## What a projection holds -/

/-- The members of a projection, one for each entry of the selection that the members have. -/
theorem projectMembers_eq_filterMap (members : Fields Json) (selection : Selection) :
    projectMembers members selection = selection.filterMap fun entry =>
      (Fields.get? members entry.1).map fun value => (entry.1, projectField value entry.2) := by
  induction selection with
  | nil => rfl
  | cons entry rest ih =>
      rcases entry with ⟨name, field⟩
      rw [projectMembers, List.filterMap_cons, ih]
      cases Fields.get? members name <;> rfl

theorem projectMembers_nil (selection : Selection) : projectMembers [] selection = [] := by
  rw [projectMembers_eq_filterMap, List.filterMap_eq_nil_iff]
  exact fun _ _ => rfl

theorem projectMembers_congr {members others : Fields Json} {selection : Selection}
    (same : ∀ entry ∈ selection, Fields.get? others entry.1 = Fields.get? members entry.1) :
    projectMembers others selection = projectMembers members selection := by
  rw [projectMembers_eq_filterMap, projectMembers_eq_filterMap]
  exact List.filterMap_congr fun entry member => by rw [same entry member]

/-- The names of a projection are among those of the members and of the selection. -/
theorem mem_names_projectMembers_iff {members : Fields Json} {selection : Selection}
    {name : String} :
    name ∈ Fields.names (projectMembers members selection) ↔
      name ∈ Fields.names selection ∧ name ∈ Fields.names members := by
  rw [projectMembers_eq_filterMap, Fields.names, Fields.names, ← Fields.get?_isSome_iff]
  simp only [List.mem_map, List.mem_filterMap, Option.map_eq_some_iff, Option.isSome_iff_exists]
  constructor
  · rintro ⟨_, ⟨entry, member, value, bound, rfl⟩, rfl⟩
    exact ⟨⟨entry, member, rfl⟩, value, bound⟩
  · rintro ⟨⟨entry, member, rfl⟩, value, bound⟩
    exact ⟨_, ⟨entry, member, value, bound, rfl⟩, rfl⟩

/-- The names of a projection stand in the order of the selection. -/
theorem names_projectMembers_sublist (members : Fields Json) (selection : Selection) :
    (Fields.names (projectMembers members selection)).Sublist (Fields.names selection) := by
  induction selection with
  | nil => exact List.Sublist.slnil
  | cons entry rest ih =>
      rcases entry with ⟨name, field⟩
      rw [projectMembers]
      cases Fields.get? members name with
      | none => exact ih.cons name
      | some value => exact ih.cons_cons name

/-- What a projection binds a name to is what the selection takes, by the field that it binds
the name to, of what the members bind it to. -/
theorem get?_projectMembers_eq_bind (members : Fields Json) (selection : Selection)
    (name : String) :
    Fields.get? (projectMembers members selection) name =
      (Fields.get? selection name).bind fun field =>
        (Fields.get? members name).map (projectField · field) := by
  induction selection with
  | nil => rfl
  | cons entry rest ih =>
      rcases entry with ⟨key, field⟩
      rw [projectMembers, Fields.get?_cons]
      by_cases same : key = name
      · subst same
        cases bound : Fields.get? members key with
        | none => simp [ih, bound]
        | some value => simp [Fields.get?_cons]
      · cases Fields.get? members key with
        | none => simpa [same] using ih
        | some value => simpa [Fields.get?_cons, same] using ih

/-- A name of the selection is bound to what the selection takes of what the members bind it
to. -/
theorem get?_projectMembers {members : Fields Json} {selection : Selection}
    (distinct : (Fields.names selection).Nodup) {name : String} {field : Field}
    (member : (name, field) ∈ selection) :
    Fields.get? (projectMembers members selection) name =
      (Fields.get? members name).map (projectField · field) := by
  rw [get?_projectMembers_eq_bind, (Fields.get?_eq_some_iff_mem distinct).mpr member,
    Option.bind_some]

/-- A group goes into an array item by item and into any other value at once. -/
theorem projectField_array (items : List Json) (sub : Selection) :
    projectField (.array items) (.group sub) =
      .array ((items.filter fun item => !item.isEmptyObject).map (project sub)) := rfl

theorem projectField_of_not_array {value : Json} (notArray : ∀ items, value ≠ .array items)
    (sub : Selection) : projectField value (.group sub) = project sub value := by
  cases value with
  | array items => exact absurd rfl (notArray items)
  | null => rfl
  | bool _ => rfl
  | number _ => rfl
  | string _ => rfl
  | object _ => rfl

/-- A selection takes nothing of a document exactly when they share no name. -/
theorem isEmptyObject_project_iff {selection : Selection} {document : Json} :
    (project selection document).isEmptyObject = true ↔
      ∀ name ∈ Fields.names selection, name ∉ Fields.names (document.object?.getD []) := by
  have shared {name : String} :=
    @mem_names_projectMembers_iff (document.object?.getD []) selection name
  unfold project
  cases projected : projectMembers (document.object?.getD []) selection with
  | nil =>
      simp only [projected, Fields.names_nil, List.not_mem_nil, false_iff, not_and] at shared
      exact iff_of_true rfl fun name wanted => shared wanted
  | cons entry rest =>
      refine iff_of_false Bool.false_ne_true fun apart => ?_
      have both : entry.1 ∈ Fields.names selection ∧ _ := shared.mp (by
        rw [projected]
        exact List.mem_cons_self)
      exact apart entry.1 both.1 both.2

/-! ## What the next projection loses -/

mutual

/-- Whether no array that a field narrows by a group holds an empty object. -/
def filledField (value : Json) : Field → Bool
  | .leaf => true
  | .group sub =>
      match value with
      | .array items => items.all fun item =>
          !item.isEmptyObject && filledMembers (item.object?.getD []) sub
      | other => filledMembers (other.object?.getD []) sub
termination_by structural field => field

/-- Whether no array that a selection narrows by a group, anywhere in members, holds an empty
object. -/
def filledMembers (members : Fields Json) : List (String × Field) → Bool
  | [] => true
  | (name, field) :: rest =>
      (match Fields.get? members name with
        | some value => filledField value field
        | none => true) && filledMembers members rest
termination_by structural entries => entries

end

/-- Whether no array of a document that a selection narrows by a group holds an empty object. -/
def filled (selection : Selection) (document : Json) : Bool :=
  filledMembers (document.object?.getD []) selection

theorem filledField_of_not_array {value : Json} (notArray : ∀ items, value ≠ .array items)
    (sub : Selection) : filledField value (.group sub) = filled sub value := by
  cases value with
  | array items => exact absurd rfl (notArray items)
  | null => rfl
  | bool _ => rfl
  | number _ => rfl
  | string _ => rfl
  | object _ => rfl

theorem filledMembers_iff {members : Fields Json} {selection : Selection} :
    filledMembers members selection = true ↔ ∀ entry ∈ selection, ∀ value,
      Fields.get? members entry.1 = some value → filledField value entry.2 = true := by
  induction selection with
  | nil => simp [filledMembers]
  | cons entry rest ih =>
      rcases entry with ⟨name, field⟩
      rw [filledMembers, Bool.and_eq_true, ih, List.forall_mem_cons]
      cases Fields.get? members name <;> simp

theorem filledField_string (text : String) (field : Field) :
    filledField (.string text) field = true := by
  cases field with
  | leaf => rfl
  | group sub => exact filledMembers_iff.mpr fun _ _ _ bound => by cases bound

theorem filledMembers_projectMembers_iff {members : Fields Json} {selection : Selection}
    (distinct : (Fields.names selection).Nodup) :
    filledMembers (projectMembers members selection) selection = true ↔
      ∀ entry ∈ selection, ∀ value, Fields.get? members entry.1 = some value →
        filledField (projectField value entry.2) entry.2 = true := by
  rw [filledMembers_iff]
  refine forall₂_congr fun entry member => ?_
  rw [get?_projectMembers distinct member]
  simp only [Option.map_eq_some_iff, forall_exists_index, and_imp, forall_apply_eq_imp_iff₂]

section Members

variable {sub : Selection} (distinct : (Fields.names sub).Nodup)
include distinct

theorem projectMembers_twice (members : Fields Json)
    (stable : ∀ entry ∈ sub, ∀ value, Fields.get? members entry.1 = some value →
      projectField (projectField value entry.2) entry.2 = projectField value entry.2) :
    projectMembers (projectMembers members sub) sub = projectMembers members sub := by
  rw [projectMembers_eq_filterMap, projectMembers_eq_filterMap members]
  apply List.filterMap_congr
  intro entry member
  have taken := @get?_projectMembers members sub distinct _ _ member
  rw [← projectMembers_eq_filterMap, taken, Option.map_map]
  cases bound : Fields.get? members entry.1 with
  | none => rfl
  | some value => simp [stable entry member value bound]

/-- Members are thinned by the next projection if that holds for what is taken of each. -/
theorem thinsMembers_projectMembers_twice (members : Fields Json)
    (thins : ∀ entry ∈ sub, ∀ value,
      (projectField value entry.2).Thins (projectField (projectField value entry.2) entry.2)) :
    Json.ThinsMembers (projectMembers members sub)
      (projectMembers (projectMembers members sub) sub) := by
  have again : projectMembers (projectMembers members sub) sub = sub.filterMap fun entry =>
      (Fields.get? members entry.1).map fun value =>
        (entry.1, projectField (projectField value entry.2) entry.2) := by
    rw [projectMembers_eq_filterMap]
    apply List.filterMap_congr
    intro entry member
    rw [get?_projectMembers distinct member, Option.map_map]
    rfl
  rw [again, projectMembers_eq_filterMap]
  clear again distinct
  induction sub with
  | nil => exact .nil
  | cons entry rest ih =>
      rw [List.forall_mem_cons] at thins
      rw [List.filterMap_cons, List.filterMap_cons]
      cases Fields.get? members entry.1 with
      | none => exact ih thins.2
      | some value => exact .cons (thins.1 value) (ih thins.2)

theorem filledMembers_of_same {members : Fields Json}
    (filled : ∀ entry ∈ sub, ∀ value, value.same (projectField value entry.2) = true →
      filledField value entry.2 = true)
    (same : (Json.object members).same (.object (projectMembers members sub)) = true) :
    filledMembers members sub = true := by
  rw [Json.same, Bool.and_eq_true, Json.sameMembers_iff] at same
  rw [filledMembers_iff]
  intro entry member value bound
  rcases same.2 _ (Fields.mem_of_get?_eq_some bound) with ⟨other, taken, equal⟩
  rw [get?_projectMembers distinct member, bound, Option.map_some, Option.some.injEq] at taken
  exact filled entry member value (taken ▸ equal)

end Members

theorem isEmptyObject_project_twice (selection : Selection) (document : Json) :
    (project selection (project selection document)).isEmptyObject =
      (project selection document).isEmptyObject := by
  rw [Bool.eq_iff_iff, isEmptyObject_project_iff, isEmptyObject_project_iff]
  refine forall₂_congr fun name wanted => not_congr ?_
  exact mem_names_projectMembers_iff.trans (and_iff_right wanted)

/-- What a field takes is taken again as it is, unless an array in it holds an empty object. -/
theorem projectField_twice {field : Field} (wellFormed : FieldWellFormed field) (value : Json)
    (filled : filledField (projectField value field) field = true) :
    projectField (projectField value field) field = projectField value field := by
  induction field using Field.induction_entries generalizing value with
  | leaf => rfl
  | group sub ih =>
      rw [FieldWellFormed, entriesWellFormed_iff] at wellFormed
      have again (document : Json)
          (inner : filledMembers (projectMembers (document.object?.getD []) sub) sub = true) :
          project sub (project sub document) = project sub document := by
        rw [filledMembers_projectMembers_iff wellFormed.1] at inner
        refine congrArg Json.object (projectMembers_twice wellFormed.1 _ ?_)
        intro entry member given bound
        exact ih entry member (wellFormed.2 entry member).2 given (inner entry member given bound)
      by_cases array : ∃ items, value = .array items
      · rcases array with ⟨items, rfl⟩
        rw [projectField_array] at filled ⊢
        simp only [filledField, List.all_eq_true, Bool.and_eq_true, List.forall_mem_map] at filled
        rw [projectField_array, List.filter_eq_self.mpr, List.map_map]
        · congr 1
          exact List.map_congr_left fun item member => again item (filled item member).2
        · exact List.forall_mem_map.mpr fun item member => (filled item member).1
      · rw [projectField_of_not_array (not_exists.mp array)] at filled ⊢
        exact again value filled

/-- The next projection loses nothing but empty objects in arrays. -/
theorem thins_projectField_twice {field : Field} (wellFormed : FieldWellFormed field)
    (value : Json) :
    (projectField value field).Thins (projectField (projectField value field) field) := by
  induction field using Field.induction_entries generalizing value with
  | leaf => exact .refl value
  | group sub ih =>
      rw [FieldWellFormed, entriesWellFormed_iff] at wellFormed
      have inner (document : Json) :
          (project sub document).Thins (project sub (project sub document)) := by
        apply Json.Thins.object
        apply thinsMembers_projectMembers_twice wellFormed.1
        exact fun entry member => ih entry member (wellFormed.2 entry member).2
      by_cases array : ∃ items, value = .array items
      · rcases array with ⟨items, rfl⟩
        rw [projectField_array, projectField_array]
        apply Json.Thins.array
        apply Json.thinsItems_filter
        intro item member
        rcases List.mem_map.mp member with ⟨original, _, rfl⟩
        exact inner original
      · rw [projectField_of_not_array (not_exists.mp array)]
        exact inner value

/-- A value that equals what a field takes of it has no array in it with an empty object. -/
theorem filledField_of_same {field : Field} (wellFormed : FieldWellFormed field) (value : Json)
    (same : value.same (projectField value field) = true) : filledField value field = true := by
  induction field using Field.induction_entries generalizing value with
  | leaf => rfl
  | group sub ih =>
      rw [FieldWellFormed, entriesWellFormed_iff] at wellFormed
      have inner (document : Json) (equal : document.same (project sub document) = true) :
          filledMembers (document.object?.getD []) sub = true := by
        cases document with
        | object members =>
            refine filledMembers_of_same wellFormed.1 (fun entry member given => ?_) equal
            exact ih entry member (wellFormed.2 entry member).2 given
        | null => cases equal
        | bool _ => cases equal
        | number _ => cases equal
        | string _ => cases equal
        | array _ => cases equal
      by_cases array : ∃ items, value = .array items
      · rcases array with ⟨items, rfl⟩
        rw [projectField_array, Json.same, Json.sameItems_iff, List.forall₂_map_right_iff] at same
        have whole : (items.filter fun item => !item.isEmptyObject) = items :=
          List.filter_eq_self.mpr (List.length_filter_eq_length_iff.mp same.length_eq.symm)
        rw [whole, List.forall₂_same] at same
        simp only [filledField, List.all_eq_true, Bool.and_eq_true]
        exact fun item member => ⟨List.filter_eq_self.mp whole item member,
          inner item (same item member)⟩
      · rw [projectField_of_not_array (not_exists.mp array)] at same
        rw [filledField_of_not_array (not_exists.mp array)]
        exact inner value same

/-- What is taken twice leaves no empty object in an array. -/
theorem filledField_projectField_twice {field : Field} (wellFormed : FieldWellFormed field)
    (value : Json) :
    filledField (projectField (projectField value field) field) field = true := by
  induction field using Field.induction_entries generalizing value with
  | leaf => rfl
  | group sub ih =>
      rw [FieldWellFormed, entriesWellFormed_iff] at wellFormed
      have inner (document : Json) : filled sub (project sub (project sub document)) = true := by
        apply (filledMembers_projectMembers_iff wellFormed.1).mpr
        intro entry member given bound
        have found : Fields.get? (projectMembers (document.object?.getD []) sub) entry.1 =
            some given := bound
        rw [get?_projectMembers wellFormed.1 member, Option.map_eq_some_iff] at found
        rcases found with ⟨original, _, rfl⟩
        exact ih entry member (wellFormed.2 entry member).2 original
      by_cases array : ∃ items, value = .array items
      · rcases array with ⟨items, rfl⟩
        rw [projectField_array, projectField_array]
        simp only [filledField, List.all_eq_true, Bool.and_eq_true, List.forall_mem_map]
        intro item member
        rcases List.mem_filter.mp member with ⟨taken, nonempty⟩
        rcases List.mem_map.mp taken with ⟨original, _, rfl⟩
        rw [isEmptyObject_project_twice]
        exact ⟨nonempty, inner original⟩
      · rw [projectField_of_not_array (not_exists.mp array)]
        exact inner value

/-! ## Whole members

Members are projected as the value of a group is. -/

section Whole

variable {selection : Selection} (wellFormed : WellFormed selection)
include wellFormed

theorem fieldWellFormed_group : FieldWellFormed (.group selection) := by
  rw [FieldWellFormed]
  exact wellFormed

theorem projectMembers_of_filled (members : Fields Json)
    (filled : filledMembers (projectMembers members selection) selection = true) :
    projectMembers (projectMembers members selection) selection =
      projectMembers members selection :=
  Json.object.inj (projectField_twice (fieldWellFormed_group wellFormed) (.object members) filled)

theorem thinsMembers_twice (members : Fields Json) :
    Json.ThinsMembers (projectMembers members selection)
      (projectMembers (projectMembers members selection) selection) :=
  thinsMembers_projectMembers_twice wellFormed.1 members fun entry member =>
    thins_projectField_twice ((entriesWellFormed_iff.mp wellFormed.2) entry member).2

theorem filledMembers_of_same_projectMembers {members : Fields Json}
    (same : (Json.object members).same (.object (projectMembers members selection)) = true) :
    filledMembers members selection = true :=
  filledField_of_same (fieldWellFormed_group wellFormed) (.object members) same

theorem filledMembers_projectMembers_twice (members : Fields Json) :
    filledMembers (projectMembers (projectMembers members selection) selection) selection = true :=
  filledField_projectField_twice (fieldWellFormed_group wellFormed) (.object members)

end Whole

/-! ## What stays the same -/

/-- What is taken of a value in which no object repeats a name is such a value. -/
theorem wellFormed_projectField {field : Field} (wellFormed : FieldWellFormed field) {value : Json}
    (formed : value.WellFormed) : (projectField value field).WellFormed := by
  induction field using Field.induction_entries generalizing value with
  | leaf => exact formed
  | group sub ih =>
      rw [FieldWellFormed, entriesWellFormed_iff] at wellFormed
      have inner {document : Json} (formed : document.WellFormed) :
          (project sub document).WellFormed := by
        rw [project, Json.WellFormed, Json.wellFormedMembers_iff, projectMembers_eq_filterMap]
        refine ⟨?_, ?_⟩
        · rw [← projectMembers_eq_filterMap]
          exact (names_projectMembers_sublist _ sub).nodup wellFormed.1
        · intro entry member
          rcases List.mem_filterMap.mp member with ⟨wanted, inside, taken⟩
          rcases Option.map_eq_some_iff.mp taken with ⟨given, bound, rfl⟩
          exact ih wanted inside (wellFormed.2 wanted inside).2
            (Json.wellFormed_of_get? formed bound)
      by_cases array : ∃ items, value = .array items
      · rcases array with ⟨items, rfl⟩
        rw [Json.WellFormed, Json.wellFormedItems_iff] at formed
        rw [projectField_array, Json.WellFormed, Json.wellFormedItems_iff, List.forall_mem_map]
        exact fun item member => inner (formed item (List.mem_filter.mp member).1)
      · rw [projectField_of_not_array (not_exists.mp array)]
        exact inner formed

theorem wellFormed_project {selection : Selection} (wellFormed : WellFormed selection)
    {document : Json} (object : ∃ members, document = .object members)
    (formed : document.WellFormed) : (project selection document).WellFormed := by
  rcases object with ⟨members, rfl⟩
  exact wellFormed_projectField (fieldWellFormed_group wellFormed) formed

end Selection

namespace Filter

open Selection

theorem admits_congr {first second : Json} (same : ∀ path,
    (follow? first path).bind scalarText? = (follow? second path).bind scalarText?)
    (filter : Filter) : filter.admits first = filter.admits second := by
  unfold admits
  cases filter.path with
  | ok path => simp only [matchesAt, same path]
  | error _ => rfl

/-- A filter finds along its path in the second projection what it finds in the first one,
because no path leads into an array. -/
theorem scalar_projectField_twice {field : Field} (wellFormed : FieldWellFormed field)
    (value : Json) (path : List String) :
    (follow? (projectField (projectField value field) field) path).bind scalarText? =
      (follow? (projectField value field) path).bind scalarText? := by
  induction field using Field.induction_entries generalizing value path with
  | leaf => rfl
  | group sub ih =>
      rw [FieldWellFormed, entriesWellFormed_iff] at wellFormed
      by_cases array : ∃ items, value = .array items
      · rcases array with ⟨items, rfl⟩
        rw [projectField_array, projectField_array]
        cases path <;> rfl
      · rw [projectField_of_not_array (not_exists.mp array)]
        cases path with
        | nil => rfl
        | cons name rest =>
            change ((Fields.get? (projectMembers (projectMembers (value.object?.getD []) sub) sub)
                name).bind (follow? · rest)).bind scalarText? =
              ((Fields.get? (projectMembers (value.object?.getD []) sub) name).bind
                (follow? · rest)).bind scalarText?
            by_cases wanted : name ∈ Fields.names sub
            · rcases List.mem_map.mp wanted with ⟨entry, member, rfl⟩
              rw [get?_projectMembers wellFormed.1 member, get?_projectMembers wellFormed.1 member]
              cases bound : Fields.get? (value.object?.getD []) entry.1 with
              | none => rfl
              | some given => exact ih entry member (wellFormed.2 entry member).2 given rest
            · have absent (members : Fields Json) :
                  Fields.get? (projectMembers members sub) name = none := by
                rw [Fields.get?_eq_none_iff, mem_names_projectMembers_iff]
                exact fun both => wanted both.1
              rw [absent, absent]

end Filter

end Folio

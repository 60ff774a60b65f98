import Folio.Proofs.Fields.Alike
import Folio.Proofs.Selection.Built
import Folio.Proofs.Selection.Projection

/-!
# Equality of selections

Two selections are equal when they are equally long and every entry of the first one is
found in the second one, with an equal field.  The names of a level are distinct, so that
this compares what every name is bound to, from either side.  It is therefore an
equivalence, it holds exactly of selections that have the same entries up to their order
at every level, and no user of a selection can tell equal ones apart: they take the same
of every document and they select the same paths.
-/

namespace Folio

open Selection

mutual

/-- Whether two fields want the same, up to the order of the entries at every level. -/
inductive Field.Rearranged : Field → Field → Prop
  | leaf : Field.Rearranged .leaf .leaf
  | group {sub middle other : Selection} (aligned : sub.AlignedTo middle)
      (permuted : middle.Perm other) : Field.Rearranged (.group sub) (.group other)

/-- Whether entries have the same names in the same order, and fields that want the same up to
the order of the entries in them. -/
inductive Selection.AlignedTo : Selection → Selection → Prop
  | nil : Selection.AlignedTo [] []
  | cons {name : String} {field other : Field} {rest others : Selection}
      (rearranged : field.Rearranged other) (more : Selection.AlignedTo rest others) :
      Selection.AlignedTo ((name, field) :: rest) ((name, other) :: others)

end

/-- Whether two selections have the same entries up to their order, at every level. -/
def Selection.Rearranged (first second : Selection) : Prop :=
  ∃ middle, first.AlignedTo middle ∧ middle.Perm second

namespace Selection

variable {first second third : Selection}

/-! ## Looking names up -/

theorem alignedTo_iff {first second : Selection} :
    first.AlignedTo second ↔ Fields.Aligned Field.Rearranged first second := by
  constructor
  · intro aligned
    induction first generalizing second with
    | nil =>
        cases aligned
        exact .nil
    | cons entry rest ih =>
        cases aligned with
        | cons rearranged more => exact .cons ⟨rfl, rearranged⟩ (ih more)
  · intro aligned
    induction aligned with
    | nil => exact .nil
    | @cons entry other _ _ related _ ih =>
        rcases entry with ⟨name, field⟩
        rcases other with ⟨otherName, otherField⟩
        rcases related with ⟨rfl, rearranged⟩
        exact .cons rearranged ih

theorem within_iff {entries : List (String × Field)} {other : Selection} :
    within entries other = true ↔ ∀ entry ∈ entries, ∃ wanted,
      Fields.get? other entry.1 = some wanted ∧ entry.2.same wanted = true := by
  induction entries with
  | nil => simp [within]
  | cons entry rest ih =>
      rcases entry with ⟨name, field⟩
      rw [within, Bool.and_eq_true, ih, List.forall_mem_cons]
      cases Fields.get? other name <;> simp

theorem same_iff_alike (distinct : (Fields.names first).Nodup)
    (distinctToo : (Fields.names second).Nodup) :
    first.same second = true ↔
      Fields.Alike (fun field other => field.same other = true) first second := by
  rw [same, Bool.and_eq_true, beq_iff_eq, within_iff,
    Fields.alike_iff_length_eq_and_forall _ distinct distinctToo]

section Fields

variable {field other last : Field} {sub others : Selection} {name : String}

theorem nodup_of_group (wellFormed : FieldWellFormed (.group sub)) :
    (Fields.names sub).Nodup := by
  rw [FieldWellFormed] at wellFormed
  exact wellFormed.1

theorem fieldWellFormed_of_get? (wellFormed : FieldWellFormed (.group sub))
    (bound : Fields.get? sub name = some field) : FieldWellFormed field := by
  rw [FieldWellFormed, entriesWellFormed_iff] at wellFormed
  exact (wellFormed.2 _ (Fields.mem_of_get?_eq_some bound)).2

theorem same_group_iff (wellFormed : FieldWellFormed (.group sub))
    (wellFormedToo : FieldWellFormed (.group others)) :
    (Field.group sub).same (.group others) = true ↔
      Fields.Alike (fun field other => field.same other = true) sub others :=
  same_iff_alike (nodup_of_group wellFormed) (nodup_of_group wellFormedToo)

theorem eq_leaf_of_same (same : Field.leaf.same field = true) : field = .leaf := by
  cases field with
  | leaf => rfl
  | group sub => contradiction

theorem exists_group_of_same (same : (Field.group sub).same field = true) :
    ∃ others, field = .group others := by
  cases field with
  | leaf => contradiction
  | group others => exact ⟨others, rfl⟩

/-! ## An equivalence -/

theorem same_refl (wellFormed : FieldWellFormed field) : field.same field = true := by
  induction field using Field.induction_entries with
  | leaf => rfl
  | group sub ih =>
      rw [same_group_iff wellFormed wellFormed]
      apply Fields.alike_self
      intro name field bound
      exact ih _ (Fields.mem_of_get?_eq_some bound) (fieldWellFormed_of_get? wellFormed bound)

theorem same_symm (wellFormed : FieldWellFormed field) (wellFormedToo : FieldWellFormed other)
    (same : field.same other = true) : other.same field = true := by
  induction field using Field.induction_entries generalizing other with
  | leaf =>
      rw [eq_leaf_of_same same]
      rfl
  | group sub ih =>
      rcases exists_group_of_same same with ⟨others, rfl⟩
      rw [same_group_iff wellFormed wellFormedToo] at same
      rw [same_group_iff wellFormedToo wellFormed]
      apply same.flip.imp
      intro name other field there here equal
      exact ih _ (Fields.mem_of_get?_eq_some here) (fieldWellFormed_of_get? wellFormed here)
        (fieldWellFormed_of_get? wellFormedToo there) equal

theorem same_trans (wellFormed : FieldWellFormed field) (wellFormedToo : FieldWellFormed other)
    (wellFormedLast : FieldWellFormed last) (same : field.same other = true)
    (onward : other.same last = true) : field.same last = true := by
  induction field using Field.induction_entries generalizing other last with
  | leaf =>
      rw [eq_leaf_of_same same] at onward
      exact onward
  | group sub ih =>
      rcases exists_group_of_same same with ⟨others, rfl⟩
      rcases exists_group_of_same onward with ⟨more, rfl⟩
      rw [same_group_iff wellFormed wellFormedToo] at same
      rw [same_group_iff wellFormedToo wellFormedLast] at onward
      rw [same_group_iff wellFormed wellFormedLast]
      apply same.trans onward
      intro name field other last here there behind equal equalToo
      exact ih _ (Fields.mem_of_get?_eq_some here) (fieldWellFormed_of_get? wellFormed here)
        (fieldWellFormed_of_get? wellFormedToo there)
        (fieldWellFormed_of_get? wellFormedLast behind) equal equalToo

/-! ## The same entries in another order -/

theorem rearranged_group_iff :
    (Field.group sub).Rearranged (.group others) ↔ sub.Rearranged others := by
  constructor
  · intro rearranged
    cases rearranged with
    | group aligned permuted => exact ⟨_, aligned, permuted⟩
  · rintro ⟨middle, aligned, permuted⟩
    exact .group aligned permuted

/-- Fields are equal when they want the same up to the order of the entries at every level. -/
theorem same_iff_rearranged (wellFormed : FieldWellFormed field)
    (wellFormedToo : FieldWellFormed other) :
    field.same other = true ↔ field.Rearranged other := by
  induction field using Field.induction_entries generalizing other with
  | leaf =>
      constructor
      · intro same
        rw [eq_leaf_of_same same]
        exact .leaf
      · rintro ⟨⟩
        rfl
  | group sub ih =>
      cases other with
      | leaf => exact iff_of_false Bool.false_ne_true nofun
      | group others =>
          have each {name : String} {field other : Field} (here : Fields.get? sub name = some field)
              (there : Fields.get? others name = some other) :
              field.same other = true ↔ field.Rearranged other :=
            ih _ (Fields.mem_of_get?_eq_some here) (fieldWellFormed_of_get? wellFormed here)
              (fieldWellFormed_of_get? wellFormedToo there)
          have alike : Fields.Alike (fun field other => field.same other = true) sub others ↔
              Fields.Alike Field.Rearranged sub others := by
            constructor
            · intro alike
              exact alike.imp fun name field other here there => (each here there).mp
            · intro alike
              exact alike.imp fun name field other here there => (each here there).mpr
          rw [same_group_iff wellFormed wellFormedToo, rearranged_group_iff, alike,
            Fields.alike_iff_exists_aligned (nodup_of_group wellFormed)
              (nodup_of_group wellFormedToo)]
          simp only [Selection.Rearranged, alignedTo_iff]

/-! ## What equal selections take -/

/-- Projections to groups that bind every name alike are equal, if that holds for what is taken
of each member. -/
theorem same_project_of_alike (wellFormed : FieldWellFormed (.group sub))
    (wellFormedToo : FieldWellFormed (.group others)) {like : Field → Field → Prop}
    (alike : Fields.Alike like sub others) {document : Json} (formed : document.WellFormed)
    (each : ∀ name field other value, Fields.get? sub name = some field →
      Fields.get? others name = some other → like field other → value.WellFormed →
      (projectField value field).same (projectField value other) = true) :
    (project sub document).same (project others document) = true := by
  rw [project, project, Json.same_object_iff
    ((names_projectMembers_sublist _ sub).nodup (nodup_of_group wellFormed))
    ((names_projectMembers_sublist _ others).nodup (nodup_of_group wellFormedToo))]
  intro name
  rw [get?_projectMembers_eq_bind, get?_projectMembers_eq_bind]
  cases here : Fields.get? sub name with
  | none =>
      rw [alike.get?_eq_none here]
      exact .none
  | some field =>
      rcases alike.exists_of_get? here with ⟨other, there, related⟩
      rw [there, Option.bind_some, Option.bind_some]
      cases bound : Fields.get? (document.object?.getD []) name with
      | none => exact .none
      | some value =>
          exact .some (each name field other value here there related
            (Json.wellFormed_of_get? formed bound))

/-- Equal fields take equal values. -/
theorem same_projectField (wellFormed : FieldWellFormed field)
    (wellFormedToo : FieldWellFormed other) (same : field.same other = true) {value : Json}
    (formed : value.WellFormed) :
    (projectField value field).same (projectField value other) = true := by
  induction field using Field.induction_entries generalizing other value with
  | leaf =>
      rw [eq_leaf_of_same same]
      exact Json.same_self formed
  | group sub ih =>
      rcases exists_group_of_same same with ⟨others, rfl⟩
      rw [same_group_iff wellFormed wellFormedToo] at same
      have inner {document : Json} (formed : document.WellFormed) :
          (project sub document).same (project others document) = true := by
        apply same_project_of_alike wellFormed wellFormedToo same formed
        intro name field other value here there equal formed
        exact ih _ (Fields.mem_of_get?_eq_some here) (fieldWellFormed_of_get? wellFormed here)
          (fieldWellFormed_of_get? wellFormedToo there) equal formed
      by_cases array : ∃ items, value = .array items
      · rcases array with ⟨items, rfl⟩
        rw [Json.WellFormed, Json.wellFormedItems_iff] at formed
        rw [projectField_array, projectField_array, Json.same, Json.sameItems_iff,
          List.forall₂_map_left_iff, List.forall₂_map_right_iff, List.forall₂_same]
        exact fun item member => inner (formed item (List.mem_filter.mp member).1)
      · rw [projectField_of_not_array (not_exists.mp array),
          projectField_of_not_array (not_exists.mp array)]
        exact inner formed

end Fields

/-! ## Whole selections -/

section Whole

variable (wellFormed : WellFormed first) (wellFormedToo : WellFormed second)
include wellFormed wellFormedToo

theorem same_project (same : first.same second = true) {document : Json}
    (formed : document.WellFormed) :
    (project first document).same (project second document) = true := by
  have group := fieldWellFormed_group wellFormed
  have groupToo := fieldWellFormed_group wellFormedToo
  rw [same_iff_alike wellFormed.1 wellFormedToo.1] at same
  apply same_project_of_alike group groupToo same formed
  intro name field other value here there equal formed
  exact same_projectField (fieldWellFormed_of_get? group here)
    (fieldWellFormed_of_get? groupToo there) equal formed

theorem mismatches_eq_of_same (same : first.same second = true) (document : Json) :
    first.mismatches document = second.mismatches document := by
  rw [same_iff_alike wellFormed.1 wellFormedToo.1] at same
  have nothing : (project first document).isEmptyObject =
      (project second document).isEmptyObject := by
    rw [Bool.eq_iff_iff, isEmptyObject_project_iff, isEmptyObject_project_iff]
    exact forall_congr' fun name => imp_congr_left (same.mem_names_iff name)
  rw [mismatches, mismatches, nothing]

/-- Equal selections select the same paths. -/
theorem selects_eq_of_same (same : first.same second = true) (path : List String) :
    first.selects path = second.selects path := by
  induction path generalizing first second with
  | nil => rfl
  | cons name rest ih =>
      have group := fieldWellFormed_group wellFormed
      have groupToo := fieldWellFormed_group wellFormedToo
      rw [same_iff_alike wellFormed.1 wellFormedToo.1] at same
      rw [selects, selects]
      cases here : Fields.get? first name with
      | none => rw [same.get?_eq_none here]
      | some field =>
          rcases same.exists_of_get? here with ⟨other, there, equal⟩
          rw [there]
          cases field with
          | leaf => rw [eq_leaf_of_same equal]
          | group sub =>
              rcases exists_group_of_same equal with ⟨others, rfl⟩
              have inner := fieldWellFormed_of_get? group here
              have innerToo := fieldWellFormed_of_get? groupToo there
              rw [FieldWellFormed] at inner innerToo
              exact ih inner innerToo equal

end Whole

/-- Equality of selections that are built is an equivalence, and it holds exactly of those
that have the same entries up to their order, at every level.  Equal selections take equal
values of every document, share nothing with the same documents, and select the same
paths. -/
theorem same_sound :
    (∀ selection, Built selection → selection.same selection = true) ∧
    (∀ first second, Built first → Built second →
      first.same second = true → second.same first = true) ∧
    (∀ first second third, Built first → Built second → Built third →
      first.same second = true → second.same third = true → first.same third = true) ∧
    ∀ first second, Built first → Built second →
      (first.same second = true ↔ first.Rearranged second) ∧
      (first.same second = true →
        (∀ document : Json, document.WellFormed →
          (project first document).same (project second document) = true) ∧
        (∀ document, first.mismatches document = second.mismatches document) ∧
        ∀ path, first.selects path = second.selects path) := by
  have group {selection : Selection} (built : Built selection) :
      FieldWellFormed (.group selection) := fieldWellFormed_group built.wellFormed
  refine ⟨?_, ?_, ?_, ?_⟩
  · intro selection built
    exact same_refl (group built)
  · intro first second built builtToo same
    exact same_symm (group built) (group builtToo) same
  · intro first second third built builtToo builtLast same onward
    exact same_trans (group built) (group builtToo) (group builtLast) same onward
  · intro first second built builtToo
    constructor
    · exact (same_iff_rearranged (group built) (group builtToo)).trans rearranged_group_iff
    · intro same
      have wellFormed := built.wellFormed
      have wellFormedToo := builtToo.wellFormed
      exact ⟨fun document formed => same_project wellFormed wellFormedToo same formed,
        mismatches_eq_of_same wellFormed wellFormedToo same,
        selects_eq_of_same wellFormed wellFormedToo same⟩

/-- Two texts with the same fields in another order, one of them narrowed, and what the two
selections take of a document with an array. -/
theorem same_sound_reordered :
    read "a, b:(c,d)" = .ok [("a", .leaf), ("b", .group [("c", .leaf), ("d", .leaf)])] ∧
    read "b:(d,c),a" = .ok [("b", .group [("d", .leaf), ("c", .leaf)]), ("a", .leaf)] ∧
    Selection.Rearranged [("a", .leaf), ("b", .group [("c", .leaf), ("d", .leaf)])]
      [("b", .group [("d", .leaf), ("c", .leaf)]), ("a", .leaf)] ∧
    (Json.object [("a", .null), ("b", .array [.object [("c", .bool true), ("d", .null)]])]).same
      (.object [("b", .array [.object [("d", .null), ("c", .bool true)]]), ("a", .null)]) =
        true := by
  have found : read "a, b:(c,d)" =
      .ok [("a", .leaf), ("b", .group [("c", .leaf), ("d", .leaf)])] := rfl
  have foundToo : read "b:(d,c),a" =
      .ok [("b", .group [("d", .leaf), ("c", .leaf)]), ("a", .leaf)] := rfl
  rcases same_sound.2.2.2 _ _ (.read found) (.read foundToo) with ⟨exactly, respected⟩
  have same : Selection.same [("a", .leaf), ("b", .group [("c", .leaf), ("d", .leaf)])]
      [("b", .group [("d", .leaf), ("c", .leaf)]), ("a", .leaf)] = true := by decide
  refine ⟨found, foundToo, exactly.mp same, ?_⟩
  have formed : (Json.object [("a", .null), ("b", .array [.object [("d", .null),
      ("e", .null), ("c", .bool true)], .object []])]).WellFormed := by
    simp [Json.WellFormed, Json.WellFormedMembers, Json.WellFormedItems]
  exact (respected same).1 _ formed

end Selection

end Folio

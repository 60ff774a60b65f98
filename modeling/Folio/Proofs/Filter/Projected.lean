import Folio.Proofs.Filter.Keep
import Folio.Proofs.Filter.Matching
import Folio.Proofs.Selection.Paths
import Folio.Proofs.Selection.Projection

/-!
# Filters on projections

A projection still holds, at the end of a path, what the document holds there, if the
selection keeps what the path leads to.  Otherwise it holds no text there: the name is gone,
or what is left under it is an object or an array.  So a filter admits a projection exactly
when it admits the document and the selection keeps its path.
-/

namespace Folio.Filter

open Selection

variable {operator : Operator} {wanted : String} {selection : Selection}

theorem matchesAt_cons (value : Json) (name : String) (rest : List String) :
    matchesAt value (name :: rest) operator wanted =
      (value.member? name).any fun inner => matchesAt inner rest operator wanted := by
  unfold matchesAt
  rw [follow?]
  cases value.member? name <;> rfl

theorem matchesAt_array (items : List Json) (path : List String) :
    matchesAt (.array items) path operator wanted = false := by
  cases path <;> rfl

/-- What a projection has under a name is what the selection takes, by the field that it
binds the name to, of what the document has there. -/
theorem member?_project (selection : Selection) (document : Json) (name : String) :
    (selection.project document).member? name =
      (Fields.get? selection name).bind fun field =>
        (document.member? name).map (projectField · field) := by
  rw [project, Json.member?, get?_projectMembers_eq_bind]
  cases document <;> rfl

/-- What matches at the end of a path in what a group takes of a value, if this is known of
projections to the group. -/
theorem matchesAt_projectField_iff {sub : Selection} {path : List String}
    (projected : ∀ document, matchesAt (sub.project document) path operator wanted = true ↔
      matchesAt document path operator wanted = true ∧ sub.Keeps path) (value : Json) :
    matchesAt (projectField value (.group sub)) path operator wanted = true ↔
      matchesAt value path operator wanted = true ∧ sub.Keeps path := by
  by_cases array : ∃ items, value = .array items
  · -- The group goes into the items, where the path does not follow.
    rcases array with ⟨items, rfl⟩
    rw [projectField_array, matchesAt_array, matchesAt_array]
    simp
  · rw [projectField_of_not_array (not_exists.mp array)]
    exact projected value

/-- What matches at the end of a path in a projection matches in the document, and the
selection keeps it. -/
theorem matchesAt_project_iff {document : Json} {path : List String} :
    matchesAt (selection.project document) path operator wanted = true ↔
      matchesAt document path operator wanted = true ∧ selection.Keeps path := by
  induction path generalizing selection document with
  | nil =>
      -- A projection is an object and has no text.
      have textless : matchesAt (selection.project document) [] operator wanted = false := rfl
      rw [textless]
      exact iff_of_false Bool.false_ne_true fun both => not_keeps_nil both.2
  | cons name rest ih =>
      rw [matchesAt_cons, matchesAt_cons, member?_project, keeps_cons_iff]
      cases Fields.get? selection name with
      | none => simp
      | some field =>
          cases document.member? name with
          | none => simp
          | some inner =>
              cases field with
              | leaf => simp [projectField]
              | group sub => simpa using matchesAt_projectField_iff (fun _ => ih) inner

/-- A filter with a path admits a projection exactly when it admits the document and the
selection keeps what the path leads to.  So it admits no projection to a selection that does
not select its path. -/
theorem admits_project_iff {filter : Filter} {path : List String}
    (resolved : filter.path = .ok path) (selection : Selection) :
    (∀ document, filter.admits (selection.project document) = true ↔
      filter.admits document = true ∧ selection.Keeps path) ∧
    (selection.selects path = false →
      ∀ document, filter.admits (selection.project document) = false) := by
  have projected (document : Json) : filter.admits (selection.project document) = true ↔
      filter.admits document = true ∧ selection.Keeps path := by
    rw [admits_of_path resolved, admits_of_path resolved]
    exact matchesAt_project_iff
  constructor
  · exact projected
  · intro unselected document
    rw [← Bool.not_eq_true, projected]
    rintro ⟨_, kept⟩
    rw [selects_of_keeps kept] at unselected
    contradiction

/-- Of owners, their first names. -/
def firstNames : Selection := [("owner", .group [("first", .leaf)])]

/-- The first name of an owner is kept, so a projection matches by it.  The owner as such is
selected but is left an object, and the last name is not selected. -/
theorem admits_project_owner :
    path ⟨"owner:(first)", .startsWith, "a"⟩ = .ok ["owner", "first"] ∧
    admits ⟨"owner:(first)", .startsWith, "a"⟩ (firstNames.project
      (.object [("owner", .object [("last", .string "lee"), ("first", .string "ann")])])) = true ∧
    path ⟨"owner", .contains, ""⟩ = .ok ["owner"] ∧
    (∀ document, admits ⟨"owner", .contains, ""⟩ (firstNames.project document) = false) ∧
    path ⟨"owner:(last)", .equals, "lee"⟩ = .ok ["owner", "last"] ∧
    ∀ document, admits ⟨"owner:(last)", .equals, "lee"⟩ (firstNames.project document) = false := by
  have first : path ⟨"owner:(first)", .startsWith, "a"⟩ = .ok ["owner", "first"] :=
    pathOf_eq_ok_iff.mpr ⟨_, _, rfl, rfl⟩
  have owner : path ⟨"owner", .contains, ""⟩ = .ok ["owner"] :=
    pathOf_eq_ok_iff.mpr ⟨_, _, rfl, rfl⟩
  have last : path ⟨"owner:(last)", .equals, "lee"⟩ = .ok ["owner", "last"] :=
    pathOf_eq_ok_iff.mpr ⟨_, _, rfl, rfl⟩
  have kept : firstNames.Keeps ["owner", "first"] :=
    ⟨_, List.prefix_rfl, .inside rfl (.last rfl)⟩
  have lost : ¬ firstNames.Keeps ["owner"] := by
    rw [keeps_cons_iff]
    rintro (whole | ⟨sub, _, inner⟩)
    · simp [firstNames, Fields.get?] at whole
    · exact not_keeps_nil inner
  refine ⟨first, ?_, owner, ?_, last, (admits_project_iff last _).2 rfl⟩
  · rw [(admits_project_iff first _).1, admits_of_path first]
    exact ⟨rfl, kept⟩
  · intro document
    rw [← Bool.not_eq_true, (admits_project_iff owner _).1]
    exact fun both => lost both.2

end Folio.Filter

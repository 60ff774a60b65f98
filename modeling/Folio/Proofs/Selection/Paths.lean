import Folio.Selection.Basic

/-!
# Paths into selections

A path leads through groups to a field.  A selection keeps what a path leads to in documents
when a field that is taken whole lies on the way, and it covers the path when it keeps it or
when the path ends at a group.  What a selection selects are the paths that it covers.
-/

namespace Folio.Selection

/-- What a path leads to in a selection: the last name is bound to it, and each name before
is bound to a group in which the path goes on.  The empty path leads nowhere. -/
inductive Leads : Selection → List String → Field → Prop
  | last {selection : Selection} {name : String} {field : Field}
      (bound : Fields.get? selection name = some field) : Leads selection [name] field
  | inside {selection sub : Selection} {name : String} {rest : List String} {field : Field}
      (bound : Fields.get? selection name = some (.group sub)) (onward : Leads sub rest field) :
      Leads selection (name :: rest) field

/-- Whether a front of a path leads to a field that is taken whole. -/
def Keeps (selection : Selection) (path : List String) : Prop :=
  ∃ front, front <+: path ∧ selection.Leads front .leaf

/-- Whether a front of a path leads to a field that is taken whole, or the path to a group. -/
def Covers (selection : Selection) (path : List String) : Prop :=
  selection.Keeps path ∨ ∃ sub, selection.Leads path (.group sub)

variable {selection : Selection} {name : String} {path rest : List String} {field : Field}

theorem not_leads_nil : ¬ selection.Leads [] field := by
  rintro ⟨⟩

theorem leads_cons_iff : selection.Leads (name :: rest) field ↔
    (rest = [] ∧ Fields.get? selection name = some field) ∨
      ∃ sub, Fields.get? selection name = some (.group sub) ∧ Leads sub rest field := by
  constructor
  · rintro (bound | ⟨bound, onward⟩)
    · exact .inl ⟨rfl, bound⟩
    · exact .inr ⟨_, bound, onward⟩
  · rintro (⟨rfl, bound⟩ | ⟨sub, bound, onward⟩)
    · exact .last bound
    · exact .inside bound onward

theorem not_keeps_nil : ¬ selection.Keeps [] := by
  rintro ⟨front, inFront, leads⟩
  rw [List.prefix_nil] at inFront
  subst inFront
  exact not_leads_nil leads

/-- What is kept is decided by what the first name is bound to. -/
theorem keeps_cons_iff : selection.Keeps (name :: rest) ↔
    Fields.get? selection name = some .leaf ∨
      ∃ sub, Fields.get? selection name = some (.group sub) ∧ Keeps sub rest := by
  constructor
  · rintro ⟨front, inFront, leads⟩
    cases front with
    | nil => exact absurd leads not_leads_nil
    | cons first front =>
        rw [List.cons_prefix_cons] at inFront
        rcases inFront with ⟨rfl, inFront⟩
        rcases leads_cons_iff.mp leads with ⟨_, bound⟩ | ⟨sub, bound, onward⟩
        · exact .inl bound
        · exact .inr ⟨sub, bound, front, inFront, onward⟩
  · rintro (bound | ⟨sub, bound, front, inFront, onward⟩)
    · exact ⟨[name], List.cons_prefix_cons.mpr ⟨rfl, List.nil_prefix⟩, .last bound⟩
    · exact ⟨name :: front, List.cons_prefix_cons.mpr ⟨rfl, inFront⟩, .inside bound onward⟩

/-- What is covered is decided by what the first name is bound to: a field that is taken
whole covers everything beneath it, and a group its own path. -/
theorem covers_cons_iff : selection.Covers (name :: rest) ↔
    Fields.get? selection name = some .leaf ∨
      ∃ sub, Fields.get? selection name = some (.group sub) ∧ (rest = [] ∨ Covers sub rest) := by
  simp only [Covers, keeps_cons_iff, leads_cons_iff]
  constructor
  · rintro ((whole | ⟨sub, bound, kept⟩) | ⟨ending, ⟨rfl, bound⟩ | ⟨sub, bound, onward⟩⟩)
    · exact .inl whole
    · exact .inr ⟨sub, bound, .inr (.inl kept)⟩
    · exact .inr ⟨ending, bound, .inl rfl⟩
    · exact .inr ⟨sub, bound, .inr (.inr ⟨ending, onward⟩)⟩
  · rintro (whole | ⟨sub, bound, rfl | kept | ⟨ending, onward⟩⟩)
    · exact .inl (.inl whole)
    · exact .inr ⟨sub, .inl ⟨rfl, bound⟩⟩
    · exact .inl (.inr ⟨sub, bound, kept⟩)
    · exact .inr ⟨ending, .inr ⟨sub, bound, onward⟩⟩

/-- The paths that a selection selects are those that it covers. -/
theorem selects_iff_covers (nonempty : path ≠ []) :
    selection.selects path = true ↔ selection.Covers path := by
  induction path generalizing selection with
  | nil => contradiction
  | cons name rest ih =>
      rw [selects, covers_cons_iff]
      cases Fields.get? selection name with
      | none => simp
      | some field =>
          cases field with
          | leaf => simp
          | group sub =>
              cases rest with
              | nil => simp [selects]
              | cons next rest => simpa using ih (List.cons_ne_nil next rest)

theorem selects_of_keeps (kept : selection.Keeps path) : selection.selects path = true := by
  cases path with
  | nil => exact absurd kept not_keeps_nil
  | cons name rest => exact (selects_iff_covers (List.cons_ne_nil name rest)).mpr (.inl kept)

end Folio.Selection

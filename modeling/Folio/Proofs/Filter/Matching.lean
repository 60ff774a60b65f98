import Folio.Filter.Basic
import Folio.Proofs.Attempt
import Folio.Proofs.Filter.Operators

/-!
# What a filter matches

A filter has a path when its property is a selection without branches, which wants one
field at each level and takes the last one whole.  Such a selection is determined by the
names along it.  A document matches when these names lead through objects to a value that
has a text, and the text passes the operator.
-/

namespace Folio

/-! ## Selections without branches -/

/-- The field that names lead to the end of, when no level has another field. -/
def Field.along : List String → Field
  | [] => .leaf
  | name :: rest => .group [(name, Field.along rest)]

/-- The selection that names lead to the end of, when no level has another field. -/
def Selection.branch (name : String) (rest : List String) : Selection :=
  [(name, Field.along rest)]

/-! ## Following names into documents -/

/-- What names lead to, each of them from an object to one of its members. -/
inductive Json.Reaches : Json → List String → Json → Prop
  | here (value : Json) : Reaches value [] value
  | inside {members : Fields Json} {name : String} {inner target : Json} {rest : List String}
      (member : Fields.get? members name = some inner) (onward : Reaches inner rest target) :
      Reaches (.object members) (name :: rest) target

/-- The text that stands for a string, a number or a boolean. -/
inductive Json.Reads : Json → String → Prop
  | string (text : String) : Reads (.string text) text
  | number (value : Number) : Reads (.number value) value.text
  | isTrue : Reads (.bool true) "true"
  | isFalse : Reads (.bool false) "false"

namespace Filter

section Paths

variable {field : Field} {names : List String} {property : String}

theorem pathOfField_eq_ok_iff : pathOfField field = .ok names ↔ field = .along names := by
  induction names generalizing field with
  | nil =>
      rcases field with _ | ⟨_ | ⟨⟨name, inner⟩, _ | ⟨other, more⟩⟩⟩ <;>
        simp [pathOfField, pathOfEntries, Field.along, map_eq_ok_iff]
  | cons first rest ih =>
      rcases field with _ | ⟨_ | ⟨⟨name, inner⟩, _ | ⟨other, more⟩⟩⟩ <;>
        simp [pathOfField, pathOfEntries, Field.along, map_eq_ok_iff, ih, and_comm]

/-- Only a selection without branches has names along it. -/
theorem pathOfEntries_eq_ok_iff {selection : Selection} :
    pathOfEntries selection = .ok names ↔
      ∃ name rest, names = name :: rest ∧ selection = .branch name rest := by
  rcases selection with _ | ⟨⟨name, field⟩, _ | ⟨other, more⟩⟩
  · simp [pathOfEntries, Selection.branch]
  · simp only [pathOfEntries, map_eq_ok_iff, pathOfField_eq_ok_iff]
    constructor
    · rintro ⟨rest, rfl, rfl⟩
      exact ⟨name, rest, rfl, rfl⟩
    · rintro ⟨name, rest, rfl, same⟩
      cases same
      exact ⟨rest, rfl, rfl⟩
  · simp [pathOfEntries, Selection.branch]

/-- The path of a property consists of the names along the selection that it spells. -/
theorem pathOf_eq_ok_iff : pathOf property = .ok names ↔
    ∃ name rest, names = name :: rest ∧ Selection.read property = .ok (.branch name rest) := by
  rw [pathOf, bind_eq_ok_iff]
  simp only [mapError_eq_ok_iff, pathOfEntries_eq_ok_iff]
  constructor
  · rintro ⟨selection, read, name, rest, names, rfl⟩
    exact ⟨name, rest, names, read⟩
  · rintro ⟨name, rest, names, read⟩
    exact ⟨_, read, name, rest, names, rfl⟩

end Paths

section Documents

variable {value target : Json} {path : List String} {text : String}

/-- Following a path leads where its names do. -/
theorem follow?_eq_some_iff : follow? value path = some target ↔ value.Reaches path target := by
  induction path generalizing value with
  | nil =>
      constructor
      · intro same
        cases same
        exact .here _
      · rintro ⟨⟩
        rfl
  | cons name rest ih =>
      rw [follow?, Option.bind_eq_some_iff]
      constructor
      · rintro ⟨inner, member, onward⟩
        rcases Json.member?_eq_some_iff.mp member with ⟨members, rfl, found⟩
        exact .inside found (ih.mp onward)
      · rintro (_ | ⟨member, onward⟩)
        exact ⟨_, member, ih.mpr onward⟩

theorem scalarText?_eq_some_iff : scalarText? value = some text ↔ value.Reads text := by
  constructor
  · intro found
    cases value with
    | string content =>
        cases found
        exact .string _
    | number number =>
        cases found
        exact .number _
    | bool truth =>
        cases truth
        · cases found
          exact .isFalse
        · cases found
          exact .isTrue
    | null => contradiction
    | array _ => contradiction
    | object _ => contradiction
  · rintro ⟨⟩ <;> rfl

theorem matchesAt_iff {operator : Operator} {wanted : String} :
    matchesAt value path operator wanted = true ↔
      ∃ target text, value.Reaches path target ∧ target.Reads text ∧
        operator.test text wanted = true := by
  simp only [matchesAt, Option.any_eq_true, Option.bind_eq_some_iff, follow?_eq_some_iff,
    scalarText?_eq_some_iff]
  constructor
  · rintro ⟨text, ⟨target, reached, reads⟩, passes⟩
    exact ⟨target, text, reached, reads, passes⟩
  · rintro ⟨target, text, reached, reads, passes⟩
    exact ⟨text, ⟨target, reached, reads⟩, passes⟩

end Documents

/-- A filter with the operator of a symbol admits a document exactly when its property
spells a selection without branches, the names along it lead through objects to a string,
a number or a boolean, and the text of that passes by the table of operators. -/
theorem admits_iff (document : Json) (property symbol wanted : String) :
    admits ⟨property, .ofSymbol symbol, wanted⟩ document = true ↔
      ∃ name rest, Selection.read property = .ok (.branch name rest) ∧
        ∃ target text, document.Reaches (name :: rest) target ∧ target.Reads text ∧
          Operator.Passes symbol text wanted := by
  have resolved : admits ⟨property, .ofSymbol symbol, wanted⟩ document = true ↔
      ∃ names, pathOf property = .ok names ∧
        matchesAt document names (.ofSymbol symbol) wanted = true := by
    rw [admits, path]
    cases pathOf property <;> simp
  simp only [resolved, pathOf_eq_ok_iff, matchesAt_iff, Operator.test_ofSymbol_iff]
  constructor
  · rintro ⟨_, ⟨name, rest, rfl, read⟩, matched⟩
    exact ⟨name, rest, read, matched⟩
  · rintro ⟨name, rest, read, matched⟩
    exact ⟨_, ⟨name, rest, rfl, read⟩, matched⟩

end Filter

end Folio

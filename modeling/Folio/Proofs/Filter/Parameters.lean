import Folio.Filter.Parameter
import Folio.Proofs.Filter.Matching
import Folio.Proofs.Selection.Paths
import Folio.Proofs.Selection.RoundTrip

/-!
# What parameters spell

A path is spelled as a property by nesting its names.  With the symbol of an operator behind
it the property is the name of a parameter, and what the parameter gives is the filter on
that path with that operator, if the schema covers the path.  The symbol is split off the end,
so it does not matter which characters the names of the path end with.
-/

namespace Folio.Filter

open Selection

/-! ## Spelling paths -/

/-- The property that spells a path: each name has a group with what follows it in the path. -/
def propertyOf : List String → String
  | [] => ""
  | [name] => name
  | name :: next :: rest => name ++ ":(" ++ propertyOf (next :: rest) ++ ")"

theorem text_branch (name : String) (rest : List String) :
    (branch name rest).text = propertyOf (name :: rest) := by
  induction rest generalizing name with
  | nil => simp [Selection.text, branch, Field.along, Selection.chars, Field.chars, propertyOf]
  | cons next rest ih =>
      rw [propertyOf, ← ih, ← String.toList_inj]
      simp [Selection.text, branch, Field.along, Selection.chars, Field.chars]

theorem wellFormed_branch {name : String} {rest : List String}
    (named : ∀ other ∈ name :: rest, IsName other) : WellFormed (branch name rest) := by
  induction rest generalizing name with
  | nil => simpa [branch, Field.along, WellFormed, EntriesWellFormed, FieldWellFormed] using named
  | cons next rest ih =>
      rw [List.forall_mem_cons] at named
      exact ⟨List.nodup_singleton name, named.1, ih named.2, trivial⟩

theorem pathOf_propertyOf {names : List String} (nonempty : names ≠ [])
    (named : ∀ name ∈ names, IsName name) : pathOf (propertyOf names) = .ok names := by
  rcases List.exists_cons_of_ne_nil nonempty with ⟨name, rest, rfl⟩
  rw [pathOf_eq_ok_iff, ← text_branch]
  exact ⟨name, rest, rfl, read_text (wellFormed_branch named)⟩

/-! ## Splitting operators off -/

section Splitting

variable {operator : Operator} {name property : String}

theorem splitOperator_append (known : operator ∈ Operator.known) (property : String) :
    splitOperator (property ++ operator.symbol) = (property, operator) := by
  rcases Operator.mem_known_iff.mp known with ⟨c, member, rfl⟩
  have ending : (property ++ (Operator.ofSymbol (String.singleton c)).symbol).toList =
      property.toList ++ [c] := by
    rw [Operator.symbol_ofSymbol, String.toList_append, String.toList_singleton]
  rw [splitOperator, ending, List.getLast?_concat, List.dropLast_concat, String.ofList_toList]
  exact if_pos member

/-- Nothing is split off a name that no symbol stands behind. -/
theorem splitOperator_of_bare
    (bare : ∀ operator ∈ Operator.known, Text.endsWith operator.symbol name = false) :
    splitOperator name = (name, .equals) := by
  rw [splitOperator]
  split
  · rename_i last ending
    rw [if_neg]
    intro member
    have ends : Text.endsWith (Operator.ofSymbol (String.singleton last)).symbol name := by
      rw [Text.endsWith_iff, Operator.symbol_ofSymbol, String.toList_singleton]
      exact List.getLast?_eq_some_iff.mp ending
    rw [bare _ (Operator.mem_known_iff.mpr ⟨last, member, rfl⟩)] at ends
    contradiction
  · rfl

end Splitting

/-! ## Filters of parameters -/

section Parameters

variable {schema : Option Selection} {name value property : String} {operator : Operator}
  {path : List String}

theorem ofParameter?_of_path (split : splitOperator name = (property, operator))
    (resolved : pathOf property = .ok path) :
    ofParameter? schema name value =
      if schema.all (·.selects path) then some ⟨property, operator, value⟩ else none := by
  simp only [ofParameter?, split, resolved]

theorem ofParameter?_eq_none (unresolved : ∀ path, pathOf (splitOperator name).1 ≠ .ok path) :
    ofParameter? schema name value = none := by
  rw [ofParameter?]
  cases resolution : pathOf (splitOperator name).1 with
  | ok path => exact absurd resolution (unresolved path)
  | error _ => simp only [resolution]

theorem ofParameters_eq_flatMap (schema : Option Selection) (parameters : List (String × String)) :
    ofParameters schema parameters =
      parameters.flatMap fun parameter => (ofParameter? schema parameter.1 parameter.2).toList :=
  List.filterMap_eq_flatMap_toList _ parameters

theorem ofParameters_singleton (schema : Option Selection) (parameter : String × String) :
    ofParameters schema [parameter] =
      (ofParameter? schema parameter.1 parameter.2).toList := by
  rw [ofParameters_eq_flatMap, List.flatMap_singleton]

/-- Whether a parameter stands for a filter on a path under a schema: the filter is all that
it gives when there is no schema or the schema covers the path, and it gives none otherwise. -/
structure StandsFor (schema : Option Selection) (parameter : String × String) (filter : Filter)
    (path : List String) : Prop where
  resolved : filter.path = .ok path
  given : (∀ selection ∈ schema, selection.Covers path) →
    ofParameters schema [parameter] = [filter]
  dropped : (∃ selection ∈ schema, ¬ selection.Covers path) →
    ofParameters schema [parameter] = []

/-- A parameter stands for the filter that it is split into. -/
theorem standsFor_of_split (split : splitOperator name = (property, operator))
    (resolved : pathOf property = .ok path) (value : String) :
    StandsFor schema (name, value) ⟨property, operator, value⟩ path := by
  have nonempty : path ≠ [] := by
    rcases pathOf_eq_ok_iff.mp resolved with ⟨first, rest, rfl, _⟩
    exact List.cons_ne_nil first rest
  have selected : schema.all (·.selects path) = true ↔
      ∀ selection ∈ schema, selection.Covers path := by
    simp only [Option.all_eq_true, selects_iff_covers nonempty, Option.mem_def]
  constructor
  · exact resolved
  · intro covered
    rw [ofParameters_singleton, ofParameter?_of_path split resolved, if_pos (selected.mpr covered)]
    rfl
  · rintro ⟨selection, given, uncovered⟩
    rw [ofParameters_singleton, ofParameter?_of_path split resolved, if_neg]
    · rfl
    · exact fun all => uncovered (selected.mp all selection given)

end Parameters

/-- Names that can be expressed, spelled with the symbol of an operator behind them, or
without one if no symbol is at their end, are a parameter that stands for the filter on the
path of these names with that operator, or with equality.  A parameter without a path gives no
filter, and a list of parameters gives what its parameters give, one after the other. -/
theorem standsFor_propertyOf (schema : Option Selection) :
    (∀ names, names ≠ [] → (∀ name ∈ names, checkName name = .ok ()) → ∀ value,
      (∀ operator ∈ Operator.known, StandsFor schema (propertyOf names ++ operator.symbol, value)
        ⟨propertyOf names, operator, value⟩ names) ∧
      ((∀ operator ∈ Operator.known, Text.endsWith operator.symbol (propertyOf names) = false) →
        StandsFor schema (propertyOf names, value) ⟨propertyOf names, .equals, value⟩ names)) ∧
    (∀ name value, (∀ path, pathOf (splitOperator name).1 ≠ .ok path) →
      ofParameters schema [(name, value)] = []) ∧
    ∀ parameters, ofParameters schema parameters =
      parameters.flatMap fun parameter => ofParameters schema [parameter] := by
  refine ⟨?_, ?_, ?_⟩
  · intro names nonempty checked value
    have resolved : pathOf (propertyOf names) = .ok names :=
      pathOf_propertyOf nonempty fun name member => checkName_eq_ok_iff.mp (checked name member)
    constructor
    · intro operator known
      exact standsFor_of_split (splitOperator_append known _) resolved value
    · intro bare
      exact standsFor_of_split (splitOperator_of_bare bare) resolved value
  · intro name value unresolved
    rw [ofParameters_singleton, ofParameter?_eq_none unresolved]
    rfl
  · intro parameters
    simp only [ofParameters_singleton]
    exact ofParameters_eq_flatMap schema parameters

/-- A name that ends in the symbol of an operator itself, on a path that a schema covers, by
its group or not at all. -/
theorem standsFor_propertyOf_first :
    ofParameters (some [("owner", .group [("first^", .leaf)])]) [("owner:(first^)$", "n")] =
      [⟨"owner:(first^)", .endsWith, "n"⟩] ∧
    ofParameters (some [("owner", .group [("first^", .group [])])]) [("owner:(first^)", "n")] =
      [⟨"owner:(first^)", .equals, "n"⟩] ∧
    ofParameters (some [("owner", .group [("last", .leaf)])]) [("owner:(first^)$", "n")] = [] ∧
    ofParameters none [("owner:(first", "n")] = [] := by
  have nonempty : ["owner", "first^"] ≠ [] := List.cons_ne_nil _ _
  have checked : ∀ name ∈ ["owner", "first^"], checkName name = .ok () := by
    rw [List.forall_mem_cons, List.forall_mem_singleton]
    exact ⟨rfl, rfl⟩
  have ending : Operator.endsWith ∈ Operator.known := by decide
  have bare : ∀ operator ∈ Operator.known,
      Text.endsWith operator.symbol (propertyOf ["owner", "first^"]) = false := by
    decide
  have suffixed (schema : Option Selection) :=
    ((standsFor_propertyOf schema).1 _ nonempty checked "n").1 _ ending
  have plain (schema : Option Selection) :=
    ((standsFor_propertyOf schema).1 _ nonempty checked "n").2 bare
  have unresolved : ∀ path, pathOf (splitOperator "owner:(first").1 ≠ .ok path := by
    intro path resolved
    rcases pathOf_eq_ok_iff.mp resolved with ⟨name, rest, _, read⟩
    cases read
  refine ⟨(suffixed _).given ?_, (plain _).given ?_, (suffixed _).dropped ?_,
    (standsFor_propertyOf none).2.1 _ "n" unresolved⟩
  · rintro _ ⟨⟩
    exact .inl ⟨_, List.prefix_rfl, .inside rfl (.last rfl)⟩
  · rintro _ ⟨⟩
    exact .inr ⟨_, .inside rfl (.last rfl)⟩
  · refine ⟨_, rfl, ?_⟩
    rw [← selects_iff_covers nonempty]
    decide

end Folio.Filter

import Folio.Command.Condition
import Folio.Proofs.Attempt
import Folio.Proofs.Filter.Keep
import Folio.Proofs.Filter.Parameters

/-!
# What conditions spell

The text of a condition puts together a property, the symbol of an operator, an equals sign
and a value.  It is cut at the first equals sign, or behind it if two stand in a row: these are
the symbol for equality and the sign in front of the value.  So a text spells what it was put
together from, unless the operator is another one and the value starts with an equals sign.
That text can be put together in two ways, and what it spells is the other one: the property
with the symbol behind it is to be equal to the rest of the value.
-/

namespace Folio.Condition

open Text Folio.Filter

/-- The text of a condition. -/
def spell (filter : Filter) : String :=
  filter.property ++ filter.operator.symbol ++ "=" ++ filter.value

/-- The filter that the text of a condition spells.  With another operator than equality a
value that starts with an equals sign gives that sign away, and the operator is read as a part
of the property. -/
def spelled (filter : Filter) : Filter :=
  if filter.operator = .equals then filter
  else
    match after? "=" filter.value with
    | some rest => ⟨filter.property ++ filter.operator.symbol, .equals, rest⟩
    | none => filter

/-- Whether the text of a condition spells what it was put together from: a value that starts
with an equals sign needs the symbol for equality. -/
def Spellable (filter : Filter) : Prop :=
  filter.operator = .equals ∨ startsWith "=" filter.value = false

/-- What is shown of a document that is selected. -/
def shown (fields : Option Selection) (document : Json) : Json :=
  fields.elim document fun selection => selection.project document

section Reading

variable {filter : Filter} {operator : Operator} {name property value : String}

theorem spelled_of_spellable (spellable : Spellable filter) : spelled filter = filter := by
  rcases spellable with equals | plain
  · rw [spelled, if_pos equals]
  · have none : after? "=" filter.value = none := by
      rw [Option.eq_none_iff_forall_ne_some]
      intro rest found
      rw [after?_eq_some_iff.mp found, startsWith_append] at plain
      contradiction
    rw [spelled, none, ite_self]

theorem known_spelled (known : filter.operator ∈ Operator.known) :
    (spelled filter).operator ∈ Operator.known := by
  rw [spelled]
  split
  · exact known
  · split
    · exact List.mem_cons_self
    · exact known

theorem spell_append_equals (property : String) (operator : Operator) (rest : String) :
    spell ⟨property, operator, "=" ++ rest⟩ =
      spell ⟨property ++ operator.symbol, .equals, rest⟩ := by
  simp only [spell, Operator.symbol, String.append_assoc]

theorem not_mem_symbol : ∀ operator ∈ Operator.known, operator ≠ .equals →
    '=' ∉ operator.symbol.toList := by
  decide

/-- Two equals signs in a row are read as the symbol for equality and the sign that separates
the value. -/
theorem read_equals (absent : '=' ∉ name.toList) (value : String) :
    read (name ++ "=" ++ "=" ++ value) = .ok (name ++ "=", value) := by
  have chars : (name ++ "=" ++ "=" ++ value).toList =
      name.toList ++ '=' :: '=' :: value.toList := by
    simp
  simp only [read, chars, cutAt?_append absent]
  rw [String.ofList_append, String.ofList_toList, String.ofList_toList]

/-- A single equals sign separates the value. -/
theorem read_plain (absent : '=' ∉ name.toList) (plain : startsWith "=" value = false) :
    read (name ++ "=" ++ value) = .ok (name, value) := by
  have chars : (name ++ "=" ++ value).toList = name.toList ++ '=' :: value.toList := by
    simp
  rw [read, chars, cutAt?_append absent]
  split
  · contradiction
  · rename_i rest found
    rw [Option.some.injEq, Prod.mk.injEq] at found
    rw [startsWith_iff.mpr ⟨rest, found.2⟩] at plain
    contradiction
  · rename_i found
    rw [Option.some.injEq, Prod.mk.injEq] at found
    rw [← found.1, ← found.2, String.ofList_toList, String.ofList_toList]

/-- The text of a condition is read as the parameter for the filter that it spells. -/
theorem read_spell (known : filter.operator ∈ Operator.known)
    (absent : '=' ∉ filter.property.toList) :
    read (spell filter) =
      .ok ((spelled filter).property ++ (spelled filter).operator.symbol,
        (spelled filter).value) := by
  rcases filter with ⟨property, operator, value⟩
  by_cases equals : operator = .equals
  · subst equals
    exact read_equals absent value
  · have longer : '=' ∉ (property ++ operator.symbol).toList := by
      rw [String.toList_append, List.mem_append, not_or]
      exact ⟨absent, not_mem_symbol operator known equals⟩
    simp only [spelled, if_neg equals]
    cases doubled : after? "=" value with
    | some rest =>
        rw [after?_eq_some_iff.mp doubled, spell_append_equals]
        exact read_equals longer rest
    | none =>
        apply read_plain longer
        rw [← Bool.not_eq_true]
        intro starts
        rcases exists_eq_append_of_startsWith starts with ⟨rest, rfl⟩
        rw [after?_append] at doubled
        contradiction

end Reading

/-! ## Selecting -/

/-- The parameters for filters give those that have a path. -/
theorem ofParameters_symbols {filters : List Filter}
    (known : ∀ filter ∈ filters, filter.operator ∈ Operator.known) :
    ofParameters none (filters.map fun filter =>
      (filter.property ++ filter.operator.symbol, filter.value)) =
        filters.filter (·.path.isOk) := by
  rw [ofParameters, List.filterMap_map, ← List.filterMap_eq_filter]
  apply List.filterMap_congr
  intro filter member
  have split := splitOperator_append (known filter member) filter.property
  cases resolution : filter.path with
  | ok path =>
      simp [ofParameter?_of_path split resolution, Option.guard, resolution, Except.isOk,
        Except.toBool]
  | error refusal =>
      have unresolved : ∀ path,
          pathOf (splitOperator (filter.property ++ filter.operator.symbol)).1 ≠ .ok path := by
        rw [split]
        intro path resolved
        cases resolution.symm.trans resolved
      simp [ofParameter?_eq_none unresolved, Option.guard, resolution, Except.isOk,
        Except.toBool]

/-- The texts of conditions select the documents that are admitted by all the filters that
they spell, as far as these have a path. -/
theorem select_spell {filters : List Filter}
    (known : ∀ filter ∈ filters, filter.operator ∈ Operator.known)
    (absent : ∀ filter ∈ filters, '=' ∉ filter.property.toList)
    (documents : List Json) (fields : Option Selection) :
    select documents fields (filters.map spell) none =
      .ok ((documents.filter fun document =>
        ((filters.map spelled).filter (·.path.isOk)).all (·.admits document)).map
          (shown fields)) := by
  have parameters : (filters.map spell).mapM read =
      .ok ((filters.map spelled).map fun filter =>
        (filter.property ++ filter.operator.symbol, filter.value)) := by
    rw [List.mapM_map, List.map_map]
    exact mapM_eq_ok_map fun filter member =>
      read_spell (known filter member) (absent filter member)
  have resolved : ∀ filter ∈ filters.map spelled, filter.operator ∈ Operator.known := by
    intro filter member
    rcases List.mem_map.mp member with ⟨given, inside, rfl⟩
    exact known_spelled (known given inside)
  rw [select, parameters]
  simp only [bind, Except.bind, ofParameters_symbols resolved, keep_eq_filter]
  cases fields with
  | none => exact congrArg Except.ok (List.map_id _).symm
  | some selection => rfl

/-- The texts of conditions on properties with a path and without equals signs select, without
a schema, the documents that all the filters admit that they were put together from, if each of
them has the operator of equality or a value that does not start with an equals sign.  In any
case they select the documents that all the filters admit that they spell, as far as these have
a path: an equals sign at the front of a value makes another operator a part of the property,
which is then to be equal to the rest of the value. -/
theorem conditions_select {filters : List Filter}
    (known : ∀ filter ∈ filters, filter.operator ∈ Operator.known)
    (absent : ∀ filter ∈ filters, '=' ∉ filter.property.toList)
    (resolved : ∀ filter ∈ filters, ∃ path, filter.path = .ok path)
    (documents : List Json) (fields : Option Selection) :
    ((∀ filter ∈ filters, Spellable filter) →
      select documents fields (filters.map spell) none =
        .ok ((documents.filter fun document => filters.all (·.admits document)).map
          (shown fields))) ∧
    select documents fields (filters.map spell) none =
      .ok ((documents.filter fun document =>
        ((filters.map spelled).filter (·.path.isOk)).all (·.admits document)).map
          (shown fields)) := by
  have selected := select_spell known absent documents fields
  constructor
  · intro spellable
    have same : filters.map spelled = filters := by
      rw [List.map_congr_left fun filter member => spelled_of_spellable (spellable filter member),
        List.map_id']
    have all : filters.filter (·.path.isOk) = filters := by
      rw [List.filter_eq_self]
      intro filter member
      rcases resolved filter member with ⟨path, resolution⟩
      rw [resolution]
      rfl
    rw [selected, same, all]
  · exact selected

/-- A name that is equal to a text with an equals sign at its front, and a race, under a name
with the symbol of an operator at its end, that ends with one. -/
def tabbies : List Filter := [⟨"name", .equals, "=tom"⟩, ⟨"race|", .endsWith, "by="⟩]

/-- Both conditions spell what they were put together from; the cat that meets both is shown by
its name. -/
theorem conditions_select_tom :
    tabbies.map spell = ["name===tom", "race|$=by="] ∧
    select
        [.object [("name", .string "=tom"), ("race|", .string "tab=by=")],
          .object [("name", .string "=tom")]]
        (some [("name", .leaf)]) (tabbies.map spell) none =
      .ok [.object [("name", .string "=tom")]] := by
  have name : path ⟨"name", .equals, "=tom"⟩ = .ok ["name"] :=
    pathOf_eq_ok_iff.mpr ⟨_, _, rfl, rfl⟩
  have race : path ⟨"race|", .endsWith, "by="⟩ = .ok ["race|"] :=
    pathOf_eq_ok_iff.mpr ⟨_, _, rfl, rfl⟩
  have known : ∀ filter ∈ tabbies, filter.operator ∈ Operator.known := by decide
  have absent : ∀ filter ∈ tabbies, '=' ∉ filter.property.toList := by decide
  have resolved : ∀ filter ∈ tabbies, ∃ path, filter.path = .ok path := by
    rw [tabbies, List.forall_mem_cons, List.forall_mem_singleton]
    exact ⟨⟨_, name⟩, ⟨_, race⟩⟩
  have spellable : ∀ filter ∈ tabbies, Spellable filter := by
    rw [tabbies, List.forall_mem_cons, List.forall_mem_singleton]
    exact ⟨.inl rfl, .inr rfl⟩
  constructor
  · rfl
  · apply ((conditions_select known absent resolved _ _).1 spellable).trans
    simp only [tabbies, List.all_cons, List.all_nil, admits_of_path name, admits_of_path race]
    rfl

/-- A name that is to start with an equals sign is not found: the same text spells another
property, which is to be equal to the rest. -/
theorem doubled_equals_not_startsWith :
    path ⟨"name", .startsWith, "=x"⟩ = .ok ["name"] ∧
    spell ⟨"name", .startsWith, "=x"⟩ = "name^==x" ∧
    admits ⟨"name", .startsWith, "=x"⟩ (.object [("name", .string "=x")]) = true ∧
    select [.object [("name", .string "=x")]] none ["name^==x"] none = .ok [] ∧
    path ⟨"name^", .equals, "x"⟩ = .ok ["name^"] ∧
    spell ⟨"name^", .equals, "x"⟩ = "name^==x" := by
  have name : path ⟨"name", .startsWith, "=x"⟩ = .ok ["name"] :=
    pathOf_eq_ok_iff.mpr ⟨_, _, rfl, rfl⟩
  have other : path ⟨"name^", .equals, "x"⟩ = .ok ["name^"] :=
    pathOf_eq_ok_iff.mpr ⟨_, _, rfl, rfl⟩
  refine ⟨name, rfl, ?_, ?_, other, rfl⟩
  · rw [admits_of_path name]
    rfl
  · have unmatched : matchesAt (.object [("name", .string "=x")]) ["name^"] .equals "x" = false :=
      rfl
    have text : ["name^==x"] = [(⟨"name^", .equals, "x"⟩ : Filter)].map spell := rfl
    rw [text, select_spell (by decide) (by decide)]
    simp [spelled, other, Except.isOk, Except.toBool, admits_of_path other, unmatched]

end Folio.Condition

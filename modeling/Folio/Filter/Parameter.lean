import Folio.Filter.Basic

/-!
# Filters from parameters

A parameter is a name and a value.  The name is a property with the symbol of an
operator at its end; without one the operator is equality.  A parameter whose
property has no path, or a path that the schema does not select, gives no filter.
-/

namespace Folio.Filter

/-- Split the symbol of a known operator off the end of a name. -/
def splitOperator (name : String) : String × Operator :=
  match name.toList.getLast? with
  | some last =>
      if last ∈ Operator.symbolChars then
        (String.ofList name.toList.dropLast, Operator.ofSymbol (String.singleton last))
      else (name, .equals)
  | none => (name, .equals)

/-- The filter that a parameter stands for under a schema. -/
def ofParameter? (schema : Option Selection) (name value : String) : Option Filter :=
  let (property, operator) := splitOperator name
  match pathOf property with
  | .error _ => none
  | .ok path =>
      if schema.all fun selection => selection.selects path then
        some ⟨property, operator, value⟩
      else none

/-- The filters that parameters stand for under a schema, in order. -/
def ofParameters (schema : Option Selection) (parameters : List (String × String)) :
    List Filter :=
  parameters.filterMap fun (name, value) => ofParameter? schema name value

end Folio.Filter

import Folio.Filter.Parameter
import Folio.Selection.Projection
import Folio.Text.Quoted

/-!
# Conditions on documents

A condition is a property with the symbol of an operator, an equals sign and a
value.  Two equals signs in a row are the symbol for equality and the one in
front of the value.
-/

namespace Folio

open Text

/-- A condition that has no equals sign. -/
structure BadCondition where
  text : String
deriving DecidableEq, Repr

/-- The wording of the refusal. -/
def BadCondition.message (bad : BadCondition) : String :=
  s!"filter {quoted bad.text} is not <property><op>=<value>"

namespace Condition

/-- The parameter that a condition stands for. -/
def read (text : String) : Except BadCondition (String × String) :=
  match cutAt? '=' text.toList with
  | none => .error ⟨text⟩
  | some (name, '=' :: value) => .ok (String.ofList (name ++ ['=']), String.ofList value)
  | some (name, value) => .ok (String.ofList name, String.ofList value)

/-- Select from documents: those that meet all conditions, narrowed to the fields
that are wanted. -/
def select (documents : List Json) (fields : Option Selection) (conditions : List String)
    (schema : Option Selection) : Except BadCondition (List Json) := do
  let parameters ← conditions.mapM read
  let kept := Filter.keep (Filter.ofParameters schema parameters) documents
  return match fields with
    | some selection => kept.map selection.project
    | none => kept

end Condition

end Folio

import Folio.Filter.Operator
import Folio.Json.Printer
import Folio.Selection.Reader

/-!
# Filters

A filter names a property, an operator and a text.  The property is a selection
with exactly one field at each level; the names along it are a path into
documents.  A document matches when the path leads through nested objects to a
string, a number or a boolean whose text passes the operator.
-/

namespace Folio

open Selection

/-- A condition on documents. -/
structure Filter where
  property : String
  operator : Operator
  value : String
deriving DecidableEq, Inhabited, Repr

namespace Filter

mutual

/-- The names along a field in which every level has exactly one field. -/
def pathOfField : Field → Except Malformation (List String)
  | .leaf => .ok []
  | .group sub => pathOfEntries sub
termination_by structural field => field

/-- The names along a selection in which every level has exactly one field. -/
def pathOfEntries : List (String × Field) → Except Malformation (List String)
  | [] => .error .emptyProperty
  | [(name, field)] => (pathOfField field).map (name :: ·)
  | _ :: _ :: _ => .error .branchingProperty
termination_by structural entries => entries

end

/-- The path that a property stands for. -/
def pathOf (property : String) : Except Malformed (List String) := do
  let selection ← Selection.read property
  (pathOfEntries selection).mapError fun cause => ⟨property, cause⟩

/-- The path of a filter. -/
def path (filter : Filter) : Except Malformed (List String) := pathOf filter.property

/-- The text of a string, a number or a boolean. -/
def scalarText? : Json → Option String
  | .string text => some text
  | .number value => some value.text
  | .bool value => some (if value then "true" else "false")
  | _ => none

/-- Follow a path through nested objects. -/
def follow? (value : Json) : (path : List String) → Option Json
  | [] => some value
  | name :: rest => (value.member? name).bind fun inner => follow? inner rest

/-- Whether the value at the end of a path has a text that passes an operator. -/
def matchesAt (value : Json) (path : List String) (operator : Operator) (wanted : String) :
    Bool :=
  ((follow? value path).bind scalarText?).any fun text => operator.test text wanted

/-- Whether a document matches a filter; a filter without a path matches none. -/
def admits (filter : Filter) (document : Json) : Bool :=
  match filter.path with
  | .ok path => matchesAt document path filter.operator filter.value
  | .error _ => false

/-- The filters with their paths, if all of them have one. -/
def resolve? : List Filter → Option (List (List String × Filter))
  | [] => some []
  | filter :: rest =>
      match filter.path with
      | .ok path => (resolve? rest).map ((path, filter) :: ·)
      | .error _ => none

/-- The documents that match all filters, in order.  The paths are worked out
once; a filter without a path leaves no document, and no filter leaves all. -/
def keep (filters : List Filter) (documents : List Json) : List Json :=
  match filters with
  | [] => documents
  | filters =>
      match resolve? filters with
      | none => []
      | some resolved =>
          documents.filter fun document =>
            resolved.all fun (path, filter) =>
              matchesAt document path filter.operator filter.value

end Filter

end Folio

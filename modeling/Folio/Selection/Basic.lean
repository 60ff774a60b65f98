import Folio.Fields

/-!
# Field selections

A selection names the fields of a document that are wanted.  A field is either
taken whole or narrowed by a selection of its own.  The order of the names is
kept for printing and for the results, but two selections are equal when they
have the same entries in any order.
-/

namespace Folio

/-- What is wanted of a field: all of it, or a selection from it. -/
inductive Field where
  | leaf
  | group (sub : List (String × Field))
deriving Inhabited, Repr

/-- Field names with what is wanted of each, in order. -/
abbrev Selection := List (String × Field)

mutual

/-- Whether two fields want the same. -/
def Field.same : Field → Field → Bool
  | .leaf, .leaf => true
  | .group sub, .group other => sub.length == other.length && Selection.within sub other
  | _, _ => false
termination_by structural field => field

/-- Whether every entry of a selection is wanted alike by another one. -/
def Selection.within : List (String × Field) → Selection → Bool
  | [], _ => true
  | (name, field) :: rest, other =>
      (match Fields.get? other name with
        | some wanted => Field.same field wanted
        | none => false) && Selection.within rest other
termination_by structural selection => selection

end

namespace Selection

/-- Whether two selections have the same entries in any order. -/
def same (first second : Selection) : Bool :=
  first.length == second.length && within first second

/-- Whether a path is wanted: following it through groups reaches a field that
is taken whole, or it ends before that. -/
def selects (selection : Selection) : (path : List String) → Bool
  | [] => true
  | name :: rest =>
      match Fields.get? selection name with
      | some .leaf => true
      | some (.group sub) => selects sub rest
      | none => false

end Selection

end Folio

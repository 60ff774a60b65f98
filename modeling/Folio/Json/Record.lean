import Folio.Json.Basic

/-!
# Records in JSON

A record with named fields is an object, in which other members are ignored, or
an array with the values of the fields in their order, in which fields at the
end may be missing.  This module finds what was given for each field; what a
field needs is for its own decoder.
-/

namespace Folio.Json

/-- What is given for the fields of a record, one entry for each name. -/
def record? (names : List String) : Json → Option (List (Option Json))
  | .object members => some (names.map (Fields.get? members))
  | .array items =>
      if items.length ≤ names.length then
        some (items.map some ++ List.replicate (names.length - items.length) none)
      else none
  | _ => none

/-- A field that has to be given. -/
def required {α : Type} (decode : Json → Option α) (given : Option Json) : Option α :=
  given.bind decode

/-- A field with a value of its own when it is not given. -/
def defaulted {α : Type} (default : α) (decode : Json → Option α) (given : Option Json) :
    Option α :=
  match given with
  | none => some default
  | some value => decode value

/-- A value that may be null. -/
def nullable {α : Type} (decode : Json → Option α) : Json → Option (Option α)
  | .null => some none
  | value => (decode value).map some

/-- An array whose items are decoded one by one. -/
def listOf {α : Type} (decode : Json → Option α) (value : Json) : Option (List α) :=
  value.array?.bind fun items => items.mapM decode

/-- An optional value, null when there is none. -/
def ofOption {α : Type} (encode : α → Json) : Option α → Json
  | none => .null
  | some value => encode value

end Folio.Json

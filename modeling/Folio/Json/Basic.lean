import Folio.Fields
import Folio.Json.Number

/-!
# JSON values

Objects keep the order in which their names were first written.  Equality of
values ignores that order, and it ignores the sign of zero.
-/

namespace Folio

/-- A JSON value. -/
inductive Json where
  | null
  | bool (value : Bool)
  | number (value : Number)
  | string (value : String)
  | array (items : List Json)
  | object (members : List (String × Json))
deriving Inhabited, Repr

namespace Json

/-- The member of an object; any other value has none. -/
def member? : Json → String → Option Json
  | .object members, name => Fields.get? members name
  | _, _ => none

theorem member?_eq_some_iff {value inner : Json} {name : String} :
    value.member? name = some inner ↔
      ∃ members, value = .object members ∧ Fields.get? members name = some inner := by
  cases value <;> simp [member?]

/-- The text of a string value. -/
def string? : Json → Option String
  | .string value => some value
  | _ => none

/-- The truth value of a boolean. -/
def bool? : Json → Option Bool
  | .bool value => some value
  | _ => none

/-- The members of an object. -/
def object? : Json → Option (Fields Json)
  | .object members => some members
  | _ => none

/-- The items of an array. -/
def array? : Json → Option (List Json)
  | .array items => some items
  | _ => none

/-- A string member of an object. -/
def stringMember? (value : Json) (name : String) : Option String :=
  (value.member? name).bind string?

/-- Whether a value is an object without members. -/
def isEmptyObject : Json → Bool
  | .object [] => true
  | _ => false

mutual

/-- Whether two values are equal: arrays item by item, objects name by name in
any order, numbers by value. -/
def same : Json → Json → Bool
  | .null, .null => true
  | .bool a, .bool b => a == b
  | .number a, .number b => a.same b
  | .string a, .string b => a == b
  | .array items, .array others => sameItems items others
  | .object members, .object others =>
      members.length == others.length && sameMembers members others
  | _, _ => false
termination_by structural value => value

/-- Whether two lists of items are equal item by item. -/
def sameItems : List Json → List Json → Bool
  | [], [] => true
  | item :: rest, other :: others => same item other && sameItems rest others
  | _, _ => false
termination_by structural items => items

/-- Whether every member has an equal member of the same name in the other
list. -/
def sameMembers : List (String × Json) → Fields Json → Bool
  | [], _ => true
  | (name, value) :: rest, others =>
      (match Fields.get? others name with
        | some other => same value other
        | none => false) && sameMembers rest others
termination_by structural members => members

end

mutual

/-- Whether no object inside a value binds a name twice. -/
def WellFormed : Json → Prop
  | .array items => WellFormedItems items
  | .object members => (Fields.names members).Nodup ∧ WellFormedMembers members
  | _ => True
termination_by structural value => value

/-- Whether every item of a list is well formed. -/
def WellFormedItems : List Json → Prop
  | [] => True
  | item :: rest => WellFormed item ∧ WellFormedItems rest
termination_by structural items => items

/-- Whether the value of every member of a list is well formed. -/
def WellFormedMembers : List (String × Json) → Prop
  | [] => True
  | (_, value) :: rest => WellFormed value ∧ WellFormedMembers rest
termination_by structural members => members

end

mutual

/-- The number of arrays and objects that stand inside one another. -/
def depth : Json → Nat
  | .array items => depthItems items + 1
  | .object members => depthMembers members + 1
  | _ => 0
termination_by structural value => value

/-- The greatest depth among the items of a list. -/
def depthItems : List Json → Nat
  | [] => 0
  | item :: rest => max (depth item) (depthItems rest)
termination_by structural items => items

/-- The greatest depth among the members of a list. -/
def depthMembers : List (String × Json) → Nat
  | [] => 0
  | (_, value) :: rest => max (depth value) (depthMembers rest)
termination_by structural members => members

end

end Json

end Folio

import Folio.Json.Printer
import Folio.Selection.Token

/-!
# What can be wrong with a selection

A selection is refused with its text and a cause.  The same holds for a single
name, for the JSON form of a selection, and for the property of a filter, which
is a selection with one field at each level.
-/

namespace Folio.Selection

open Text

/-- Why a selection is refused. -/
inductive Malformation where
  /-- a field name should stand where another token does -/
  | nameExpected (found : Located)
  /-- a field name should follow at the end of the text -/
  | nameMissing
  /-- a group should open behind the colon of a name -/
  | groupExpected (name : String) (found : Located)
  /-- the text ends behind the colon of a name -/
  | groupMissing (name : String)
  /-- a group should close where another token stands -/
  | closingExpected (found : Located)
  /-- the text ends inside the group of a name -/
  | unclosedGroup (name : String)
  /-- a group closes that was not opened -/
  | unopenedGroup (offset : Nat)
  /-- the selection has ended but the text goes on -/
  | unexpected (found : Located)
  /-- a name is empty -/
  | emptyName
  /-- a name has blanks at an end -/
  | paddedName
  /-- a name contains punctuation -/
  | punctuatedName
  /-- a member of the JSON form is neither `true` nor an object -/
  | memberShape (name : String) (value : Json)
  /-- the JSON form is neither a string nor an object -/
  | valueShape
  /-- a filter property names no field at some level -/
  | emptyProperty
  /-- a filter property names several fields at some level -/
  | branchingProperty
deriving Inhabited, Repr

/-- The wording of a cause. -/
def Malformation.reason : Malformation → String
  | .nameExpected found =>
      s!"expected field name at {found.offset}, found {found.token.describe}"
  | .nameMissing => "expected field name at end of input"
  | .groupExpected name found =>
      s!"expected '(' after {quoted name}: at {found.offset}, found {found.token.describe}"
  | .groupMissing name => s!"expected '(' after {quoted name}:"
  | .closingExpected found =>
      s!"expected ')' at {found.offset}, found {found.token.describe}"
  | .unclosedGroup name => s!"unbalanced '(' in group {quoted name}"
  | .unopenedGroup offset => s!"unbalanced ')' at {offset}"
  | .unexpected found => s!"unexpected {found.token.describe} at {found.offset}"
  | .emptyName => "empty field name"
  | .paddedName => "field name has surrounding whitespace"
  | .punctuatedName => "field name contains one of ',:()'"
  | .memberShape name value =>
      s!"field {quoted name} must be true or an object, got {value.text}"
  | .valueShape => "expected a selection string or object"
  | .emptyProperty => "empty filter property"
  | .branchingProperty => "filter property must select exactly one field per level"

/-- The byte of the text that a cause points at, if it points at one. -/
def Malformation.offset? : Malformation → Option Nat
  | .nameExpected found => some found.offset
  | .groupExpected _ found => some found.offset
  | .closingExpected found => some found.offset
  | .unopenedGroup offset => some offset
  | .unexpected found => some found.offset
  | _ => none

/-- A refused text and the cause. -/
structure Malformed where
  input : String
  cause : Malformation
deriving Inhabited, Repr

/-- The wording of a refusal. -/
def Malformed.message (refusal : Malformed) : String :=
  s!"malformed field selection {quoted refusal.input}: {refusal.cause.reason}"

end Folio.Selection

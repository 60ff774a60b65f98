import Folio.Selection.Basic
import Folio.Selection.Malformation

/-!
# Field names

A field name is not empty, has no blanks at its ends and contains no
punctuation: these are the names that the text of a selection can express.
Adding an entry to a selection checks its name.
-/

namespace Folio.Selection

open Text

/-- What is wrong with a name, if anything. -/
def nameFault? (name : String) : Option Malformation :=
  if name.toList = [] then some .emptyName
  else if trim name.toList ≠ name.toList then some .paddedName
  else if name.toList.any Token.isPunctuation then some .punctuatedName
  else none

/-- Refuse a name that the text of a selection cannot express. -/
def checkName (name : String) : Except Malformed Unit :=
  match nameFault? name with
  | some fault => .error ⟨name, fault⟩
  | none => .ok ()

/-- Whether a name can be expressed. -/
def IsName (name : String) : Prop := nameFault? name = none

instance (name : String) : Decidable (IsName name) :=
  decidable_of_iff ((nameFault? name).isNone = true) (by simp [IsName])

/-- Add an entry to a selection; a name that is there keeps its place. -/
def insert (selection : Selection) (name : String) (field : Field) :
    Except Malformed Selection :=
  (checkName name).map fun _ => Fields.put selection name field

mutual

/-- Whether the names inside a field are distinct and can be expressed. -/
def FieldWellFormed : Field → Prop
  | .leaf => True
  | .group sub => (Fields.names sub).Nodup ∧ EntriesWellFormed sub
termination_by structural field => field

/-- Whether the entries of a selection have names that can be expressed, at every
level, and no level inside them repeats a name. -/
def EntriesWellFormed : List (String × Field) → Prop
  | [] => True
  | (name, field) :: rest => IsName name ∧ FieldWellFormed field ∧ EntriesWellFormed rest
termination_by structural entries => entries

end

/-- Whether a selection has, at every level, distinct names that can be
expressed. -/
def WellFormed (selection : Selection) : Prop :=
  (Fields.names selection).Nodup ∧ EntriesWellFormed selection

end Folio.Selection

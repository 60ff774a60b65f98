import Folio.Proofs.Fields
import Folio.Proofs.Text.Blank
import Folio.Selection.Reader

/-!
# The grammar of selection texts

The grammar is

    fields  ::=  [ field { "," field } ]
    field   ::=  name [ ":" "(" fields ")" ]

where a name is a run of characters without punctuation that is not all blank, and
blanks may stand around every symbol.  A derivation is told by the fields in the order
in which they are written, groups and repetitions included.  It means a selection in
which, at every level, a repeated name keeps its first place and takes its last
meaning.
-/

namespace Folio

/-! ## What is written and what it means -/

mutual

/-- What a field means that is written out. -/
def Field.meaning : Field → Field
  | .leaf => .leaf
  | .group sub => .group (Fields.settled (Selection.meanings sub))
termination_by structural field => field

/-- What each of the fields means that are written at one level. -/
def Selection.meanings : List (String × Field) → List (String × Field)
  | [] => []
  | (name, field) :: rest => (name, Field.meaning field) :: Selection.meanings rest
termination_by structural written => written

end

namespace Selection

open Text

/-- The selection that the fields mean that are written at the outermost level. -/
def meaning (written : List (String × Field)) : Selection := Fields.settled (meanings written)

/-! ## Derivations -/

/-- Whether characters are a symbol with blanks around it. -/
def Padded (symbol : Char) (chars : List Char) : Prop :=
  ∃ before behind, Blank before ∧ Blank behind ∧ chars = before ++ symbol :: behind

/-- Whether a run of characters is a name, less the blanks at its ends. -/
structure Names (run : List Char) (name : String) : Prop where
  plain : ∀ c ∈ run, c ∉ [',', ':', '(', ')']
  trimmed : trim run = name.toList
  nonempty : name ≠ ""

mutual

/-- The texts of the fields of one level. -/
inductive DerivesFields : List Char → List (String × Field) → Prop
  | none {blanks : List Char} (blank : Blank blanks) : DerivesFields blanks []
  | one {chars : List Char} {entry : String × Field} (field : DerivesField chars entry) :
      DerivesFields chars [entry]
  | more {first comma later : List Char} {entry next : String × Field}
      {others : List (String × Field)} (field : DerivesField first entry)
      (separator : Padded ',' comma) (fields : DerivesFields later (next :: others)) :
      DerivesFields (first ++ comma ++ later) (entry :: next :: others)

/-- The texts of a field. -/
inductive DerivesField : List Char → String × Field → Prop
  | leaf {run : List Char} {name : String} (named : Names run name) :
      DerivesField run (name, .leaf)
  | group {run colon opening inner closing : List Char} {name : String}
      {sub : List (String × Field)} (named : Names run name) (colons : Padded ':' colon)
      (opens : Padded '(' opening) (fields : DerivesFields inner sub)
      (closes : Padded ')' closing) :
      DerivesField (run ++ colon ++ opening ++ inner ++ closing) (name, .group sub)

end

/-! ## Meanings -/

theorem meaning_group (sub : List (String × Field)) :
    (Field.group sub).meaning = .group (meaning sub) := rfl

@[simp]
theorem meanings_cons (name : String) (field : Field) (rest : List (String × Field)) :
    meanings ((name, field) :: rest) = (name, field.meaning) :: meanings rest := rfl

theorem meanings_append (first second : List (String × Field)) :
    meanings (first ++ second) = meanings first ++ meanings second := by
  induction first with
  | nil => rfl
  | cons entry rest ih =>
      rcases entry with ⟨name, field⟩
      rw [List.cons_append, meanings_cons, ih, meanings_cons, List.cons_append]

theorem meaning_concat (written : List (String × Field)) (name : String) (field : Field) :
    meaning (written ++ [(name, field)]) =
      Fields.put (meaning written) name field.meaning := by
  rw [meaning, meanings_append, meanings_cons, ← Fields.putAll_nil_eq_settled, meanings,
    Fields.putAll_concat, Fields.putAll_nil_eq_settled, ← meaning]

mutual

theorem meaning_of_fieldWellFormed : (field : Field) → FieldWellFormed field →
    field.meaning = field
  | .leaf, _ => rfl
  | .group sub, wellFormed => by
      rw [Field.meaning, meanings_of_wellFormed sub wellFormed.2,
        ← Fields.putAll_nil_eq_settled, Fields.putAll_nil wellFormed.1]
termination_by structural field => field

theorem meanings_of_wellFormed : (entries : List (String × Field)) → EntriesWellFormed entries →
    meanings entries = entries
  | [], _ => rfl
  | (name, field) :: rest, wellFormed => by
      rw [meanings, meaning_of_fieldWellFormed field wellFormed.2.1,
        meanings_of_wellFormed rest wellFormed.2.2]
termination_by structural entries => entries

end

theorem meaning_of_wellFormed {selection : Selection} (wellFormed : WellFormed selection) :
    meaning selection = selection := by
  rw [meaning, meanings_of_wellFormed selection wellFormed.2, ← Fields.putAll_nil_eq_settled,
    Fields.putAll_nil wellFormed.1]

end Selection

end Folio

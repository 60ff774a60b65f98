import Folio.Query.Options

/-!
# The fields that a query asks for

A query asks for fields by a selection, or by a text that need not be one.  The fields are
read before the store is asked, so that the answers to a query are told by the fields that
were read, and a query whose fields are malformed is refused whatever is stored.
-/

namespace Folio.Query

/-- The fields that a query asks for, if it asks for any: those that are given, or what the
text that is given reads as. -/
def reading (query : Query) : Except Selection.Malformed (Option Selection) :=
  match query.fields with
  | none => .ok none
  | some (.tree selection) => .ok (some selection)
  | some (.text source) => (Selection.read source).map some

/-- Whether the fields that a query asks for can be read, and which they are. -/
def Reads (query : Query) (fields : Option Selection) : Prop := query.reading = .ok fields

theorem reads_or_malformed (query : Query) :
    (∃ fields, query.Reads fields) ∨ ∃ refusal, query.reading = .error refusal := by
  unfold Reads
  cases query.reading with
  | error refusal => exact .inr ⟨refusal, rfl⟩
  | ok fields => exact .inl ⟨fields, rfl⟩

end Folio.Query

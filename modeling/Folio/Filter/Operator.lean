import Folio.Text.Search

/-!
# Filter operators

An operator compares the text of a document field with the text of a filter.
Six operators have a symbol of one character; every other symbol is kept as it
is and never matches.
-/

namespace Folio

open Text

/-- How the text of a field is compared with the text of a filter. -/
inductive Operator where
  | equals
  | oneOf
  | languageTag
  | contains
  | startsWith
  | endsWith
  | unknown (symbol : String)
deriving DecidableEq, Inhabited, Repr

namespace Operator

/-- The operator of a symbol. -/
def ofSymbol (symbol : String) : Operator :=
  if symbol = "=" then .equals
  else if symbol = "~" then .oneOf
  else if symbol = "|" then .languageTag
  else if symbol = "*" then .contains
  else if symbol = "^" then .startsWith
  else if symbol = "$" then .endsWith
  else .unknown symbol

/-- The symbol of an operator. -/
def symbol : Operator → String
  | .equals => "="
  | .oneOf => "~"
  | .languageTag => "|"
  | .contains => "*"
  | .startsWith => "^"
  | .endsWith => "$"
  | .unknown symbol => symbol

/-- The characters that are symbols of known operators. -/
def symbolChars : List Char := ['=', '~', '|', '*', '^', '$']

/-- Whether the text of a field passes the operator with the text of a filter.
-/
def test (operator : Operator) (text wanted : String) : Bool :=
  match operator with
  | .equals => text == wanted
  | .oneOf => (piecesBetween ',' wanted).contains text
  | .languageTag => text == wanted || Text.startsWith (wanted ++ "-") text
  | .contains => Text.contains wanted text
  | .startsWith => Text.startsWith wanted text
  | .endsWith => Text.endsWith wanted text
  | .unknown _ => false

/-- Whether an operator is the one that its symbol names. -/
def Proper (operator : Operator) : Prop := ofSymbol operator.symbol = operator

/-- The operator of a symbol has that symbol. -/
@[simp] theorem symbol_ofSymbol (text : String) : (ofSymbol text).symbol = text := by
  unfold ofSymbol
  split
  · simp_all [symbol]
  split
  · simp_all [symbol]
  split
  · simp_all [symbol]
  split
  · simp_all [symbol]
  split
  · simp_all [symbol]
  split
  · simp_all [symbol]
  · rfl

theorem proper_ofSymbol (text : String) : (ofSymbol text).Proper := by
  simp [Proper]

end Operator

end Folio

import Folio.Text.Blank
import Folio.Text.Quoted
import Folio.Text.Width

/-!
# Tokens of a selection text

Four punctuation characters are tokens by themselves.  What stands between two
of them is a name, less the blanks at its ends, unless it is all blank.  Every
token remembers the byte at which it starts.
-/

namespace Folio.Selection

open Text

/-- A token of a selection text. -/
inductive Token where
  | name (text : String)
  | comma
  | colon
  | opening
  | closing
deriving DecidableEq, Inhabited, Repr

namespace Token

/-- The token of a punctuation character. -/
def ofChar? : Char → Option Token
  | ',' => some .comma
  | ':' => some .colon
  | '(' => some .opening
  | ')' => some .closing
  | _ => none

/-- Whether a character is punctuation. -/
def isPunctuation (c : Char) : Bool := (ofChar? c).isSome

/-- The characters of a token. -/
def chars : Token → List Char
  | .name text => text.toList
  | .comma => [',']
  | .colon => [':']
  | .opening => ['(']
  | .closing => [')']

/-- How a message names a token. -/
def describe : Token → String
  | .name text => s!"name {quoted text}"
  | .comma => "','"
  | .colon => "':'"
  | .opening => "'('"
  | .closing => "')'"

end Token

/-- A token and the byte at which it starts. -/
structure Located where
  token : Token
  offset : Nat
deriving DecidableEq, Inhabited, Repr

/-- The name in a run of characters that starts at a byte, if the run is not all
blank. -/
def nameIn (start : Nat) (run : List Char) : List Located :=
  match trim run with
  | [] => []
  | c :: rest =>
      [⟨.name (String.ofList (c :: rest)), start + width (run.takeWhile isBlank)⟩]

/-- The tokens of a text.  The run of characters since the last punctuation is
carried along in reverse, with the byte at which it starts. -/
def tokensFrom (start : Nat) (run : List Char) : List Char → List Located
  | [] => nameIn start run.reverse
  | c :: rest =>
      match Token.ofChar? c with
      | some punctuation =>
          let here := start + width run
          nameIn start run.reverse ++
            ⟨punctuation, here⟩ :: tokensFrom (here + c.utf8Size) [] rest
      | none => tokensFrom start (c :: run) rest

/-- The tokens of a text with the bytes at which they start. -/
def tokens (text : String) : List Located := tokensFrom 0 [] text.toList

example : (tokens " é , b:( c )").map Located.offset = [1, 4, 6, 7, 8, 10, 12] := by
  decide +kernel

end Folio.Selection

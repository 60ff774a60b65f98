import Folio.Text.Percent

/-!
# Routes

A route is a pattern for the pieces of a path between its slashes.  A piece of a
pattern is matched by itself; one with a colon is matched by every piece that
starts with what stands in front of the colon, and what it goes on with is captured.
Nothing at all may be captured, but not at the end of a path.

A collection lies at `/api/v1/` and its name; behind a further slash stands the
id of a document.
-/

namespace Folio

open Text

/-- A piece of a pattern. -/
inductive Piece where
  | literal (chars : List Char)
  | capture (front : List Char)
deriving DecidableEq, Repr

namespace Piece

/-- The piece of a pattern that characters stand for. -/
def ofChars (chars : List Char) : Piece :=
  match cutAt? ':' chars with
  | some (front, _) => .capture front
  | none => .literal chars

/-- What a piece of a path leaves in the captures, if it matches; it may be the last
piece of the path. -/
def match? (piece : Piece) (isLast : Bool) (chars : List Char) : Option (List (List Char)) :=
  match piece with
  | .literal expected => if chars = expected then some [] else none
  | .capture front =>
      match front.isPrefixOf? chars with
      | some captured => if isLast && captured.isEmpty then none else some [captured]
      | none => none

end Piece

/-- What the pieces of a path leave in the captures, if all of them match. -/
def matchPieces? : List Piece → List (List Char) → Option (List (List Char))
  | [], [] => some []
  | piece :: pattern, chars :: path => do
      let captured ← piece.match? path.isEmpty chars
      let more ← matchPieces? pattern path
      return captured ++ more
  | _, _ => none

/-- Where a path leads. -/
inductive Route where
  | health
  | metrics
  | collection
  | document (captures : List (List Char))
deriving DecidableEq, Repr

namespace Route

/-- The path of a collection. -/
def base (collection : String) : String := "/api/v1/" ++ collection

/-- The path of a document. -/
def url (collection id : String) : String := base collection ++ "/" ++ id

/-- The pattern for the path of a collection.  A pattern is not taken when the routes are
set up, and nothing is served, if the name has an asterisk, a colon that ends a piece, or two
colons in one piece; what is said here of such a name is said of no gateway that runs. -/
def pattern (collection : String) : List Piece :=
  ((base collection).toList.splitOn '/').map Piece.ofChars

/-- Where a path leads, if it leads anywhere. -/
def find? (collection : String) (path : List Char) : Option Route :=
  if path = "/health".toList then some .health
  else if path = "/metrics".toList then some .metrics
  else
    let pieces := path.splitOn '/'
    if (matchPieces? (pattern collection) pieces).isSome then some .collection
    else (matchPieces? (pattern collection ++ [.capture []]) pieces).map .document

/-- The text that a captured piece of a path stands for, if it is UTF-8. -/
def captured? (chars : List Char) : Option String :=
  ofBytes? (percentDecode (bytesOf (String.ofList chars)))

end Route

end Folio

/-!
# Media types

A media type names a type and a subtype around a slash, possibly followed by a
semicolon and parameters; no blank may stand in front of the semicolon.  A subtype
may have a suffix behind its last plus sign.  The case of letters does not matter.
-/

namespace Folio

/-- A media type without its parameters, in lower case. -/
structure MediaType where
  main : List Char
  sub : List Char
  suffix : Option (List Char)
deriving DecidableEq, Repr

namespace MediaType

/-- Whether a character may stand in a type, a subtype or the name of a
parameter. -/
def isTokenChar (c : Char) : Bool :=
  c.isAlphanum || "!#$%&'*+-.^_`|~".toList.contains c

/-- Whether a character may stand between quotes. -/
def isQuotable (c : Char) : Bool := ' ' ≤ c && c ≤ '~'

/-- A place among parameters. -/
inductive Place where
  /-- in front of a parameter, or of nothing -/
  | start
  /-- inside the name of a parameter -/
  | name
  /-- behind an equals sign -/
  | equals
  /-- inside a value without quotes -/
  | value
  /-- behind an opening quote; the value has at least one character -/
  | opened
  /-- inside a value in quotes -/
  | quoted
  /-- behind a closing quote -/
  | closed
deriving DecidableEq, Repr

namespace Place

/-- The place behind the next character, if it may stand there. -/
def step (place : Place) (c : Char) : Option Place :=
  match place with
  | .start => if c = ' ' then some .start else if isTokenChar c then some .name else none
  | .name => if c = '=' then some .equals else if isTokenChar c then some .name else none
  | .equals => if c = '"' then some .opened else if isTokenChar c then some .value else none
  | .value => if c = ';' then some .start else if isTokenChar c then some .value else none
  | .opened => if isQuotable c then some .quoted else none
  | .quoted => if c = '"' then some .closed else if isQuotable c then some .quoted else none
  | .closed => if c = ';' then some .start else if c = ' ' then some .closed else none

/-- Whether parameters may end at a place. -/
def canEnd : Place → Bool
  | .start | .equals | .value | .closed => true
  | .name | .opened | .quoted => false

end Place

/-- Whether characters are well-formed parameters. -/
def areParameters (chars : List Char) : Bool :=
  (chars.foldlM Place.step .start).any Place.canEnd

/-- Split the suffix off a subtype; a plus sign in front of everything is part of
the subtype. -/
def splitSuffix (sub : List Char) : List Char × Option (List Char) :=
  let suffix := sub.reverse.takeWhile (· != '+')
  match sub.reverse.drop suffix.length with
  | _ :: first :: before => ((first :: before).reverse, some suffix.reverse)
  | _ => (sub, none)

/-- The media type that a header names, if it is well formed. -/
def ofHeader? (header : String) : Option MediaType :=
  let chars := header.toList
  match chars.takeWhile isTokenChar, chars.dropWhile isTokenChar with
  | main@(_ :: _), '/' :: rest =>
      let (sub, suffix) := splitSuffix ((rest.takeWhile isTokenChar).map Char.toLower)
      let found : MediaType := ⟨main.map Char.toLower, sub, suffix⟩
      match rest.takeWhile isTokenChar, rest.dropWhile isTokenChar with
      | [], _ => none
      | _, [] => some found
      | _, c :: parameters =>
          if c = ';' ∧ areParameters parameters then some found else none
  | _, _ => none

/-- Whether a media type stands for JSON. -/
def isJson (mediaType : MediaType) : Bool :=
  mediaType.main = "application".toList &&
    (mediaType.sub = "json".toList || mediaType.suffix = some "json".toList)

/-- Whether a header, if there is one, names a media type that stands for JSON. -/
def headerIsJson (header : Option String) : Bool :=
  (header.bind ofHeader?).any isJson

example : headerIsJson (some "Application/vnd.x+JSON; charset=\"utf 8\"") := by decide +kernel

example : ¬ headerIsJson (some "application/json; charset") := by decide +kernel

example : ¬ headerIsJson (some "application/json ; a=b") := by decide +kernel

end MediaType

end Folio

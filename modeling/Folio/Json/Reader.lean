import Folio.Json.Basic
import Folio.Text.Hex
import Folio.Text.Width

/-!
# Reading JSON

The reader takes characters from the front of a text and gives a value together
with the characters that it left.  An error says what is wrong and how many
bytes of the text lie behind its place, which fixes the line and the column.
Arrays and objects nest at most 127 deep.

An object may embed a text: if its first member has a reserved name, that is its
only member, and the object stands for the value that the text of the member is
read as.  Places of errors in an embedded text are places in that text, and its
values nest for themselves.

A value that nobody asked for is skimmed: the same grammar holds, but numbers may
be out of range, surrogates need no partner, nesting has no limit, and nothing is
embedded.
-/

namespace Folio.Json.Reader

open Decimal Text

/-- What can be wrong with a text that should be JSON. -/
inductive Cause where
  | endInArray
  | endInObject
  | endInString
  | endInValue
  | colonExpected
  | commaOrBracketExpected
  | commaOrBraceExpected
  | badWord
  | valueExpected
  | badEscape
  | badNumber
  | numberOutOfRange
  | controlCharacter
  | nameExpected
  | loneSurrogate
  | trailingComma
  | trailingText
  | halfSurrogatePair
  | tooDeep
  | textExpected (found : String)
deriving DecidableEq, Repr

/-- The wording of a cause. -/
def Cause.message : Cause → String
  | .endInArray => "EOF while parsing a list"
  | .endInObject => "EOF while parsing an object"
  | .endInString => "EOF while parsing a string"
  | .endInValue => "EOF while parsing a value"
  | .colonExpected => "expected `:`"
  | .commaOrBracketExpected => "expected `,` or `]`"
  | .commaOrBraceExpected => "expected `,` or `\x7d`"
  | .badWord => "expected ident"
  | .valueExpected => "expected value"
  | .badEscape => "invalid escape"
  | .badNumber => "invalid number"
  | .numberOutOfRange => "number out of range"
  | .controlCharacter =>
      "control character (\\u0000-\\u001F) found while parsing a string"
  | .nameExpected => "key must be a string"
  | .loneSurrogate => "lone leading surrogate in hex escape"
  | .trailingComma => "trailing comma"
  | .trailingText => "trailing characters"
  | .halfSurrogatePair => "unexpected end of hex escape"
  | .tooDeep => "recursion limit exceeded"
  | .textExpected found => s!"invalid type: {found}, expected raw value"

/-- A line of a text and the number of bytes in front of a place in it. -/
structure Position where
  line : Nat
  column : Nat
deriving DecidableEq, Repr

/-- Walk over bytes up to an offset; a line feed starts a new line. -/
def positionFrom (position : Position) : (offset : Nat) → List UInt8 → Position
  | 0, _ => position
  | _ + 1, [] => position
  | offset + 1, byte :: rest =>
      if byte = 10 then positionFrom ⟨position.line + 1, 0⟩ offset rest
      else positionFrom ⟨position.line, position.column + 1⟩ offset rest

/-- Where an error is. -/
inductive Place where
  /-- so many bytes of the text lie behind the place -/
  | behind (bytes : Nat)
  /-- the place lies in a text that is embedded in the text -/
  | embedded (position : Position)
deriving DecidableEq, Repr

/-- An error with its place. -/
structure SyntaxError where
  cause : Cause
  place : Place
deriving DecidableEq, Repr

namespace SyntaxError

/-- The position of an error, for the text that was read. -/
def position (error : SyntaxError) (text : String) : Position :=
  match error.place with
  | .behind bytes => positionFrom ⟨1, 0⟩ (text.utf8ByteSize - bytes) text.toUTF8.data.toList
  | .embedded position => position

/-- The wording of an error, for the text that was read. -/
def message (error : SyntaxError) (text : String) : String :=
  let place := error.position text
  s!"{error.cause.message} at line {place.line} column {place.column}"

/-- An error in an embedded text, as an error in the text that embeds it. -/
def within (error : SyntaxError) (text : String) : SyntaxError :=
  ⟨error.cause, .embedded (error.position text)⟩

/-- Whether an error is about an embedded text, or about what stands instead of
one. -/
def isInEmbedding (error : SyntaxError) : Bool :=
  match error.cause, error.place with
  | .textExpected _, _ => true
  | _, .embedded _ => true
  | _, .behind _ => false

end SyntaxError

/-- A computation that may meet an error. -/
abbrev Attempt := Except SyntaxError

/-- What a reading step gives: a result and the characters that are left. -/
abbrev Parsed (α : Type) := α × List Char

/-- An error right in front of the characters that are left. -/
def failBefore {α : Type} (cause : Cause) (rest : List Char) : Attempt α :=
  .error ⟨cause, .behind (width rest)⟩

/-- An error behind the first byte of the characters that are left. -/
def failAt {α : Type} (cause : Cause) (rest : List Char) : Attempt α :=
  .error ⟨cause, .behind (width rest - 1)⟩

/-- How strictly a value is read: a value that is kept has to be meaningful, one
that is skimmed only has to follow the grammar. -/
inductive Care where
  | keep
  | skim
deriving DecidableEq, Repr

/-- The blanks that may stand between the tokens of JSON. -/
def isBlank (c : Char) : Bool :=
  c == ' ' || c == '\n' || c == '\t' || c == '\r'

/-- Leave out blanks. -/
def skipBlanks (chars : List Char) : List Char := chars.dropWhile isBlank

/-! ## Words -/

/-- Read the rest of a word. -/
def word {α : Type} (value : α) : (letters chars : List Char) → Attempt (Parsed α)
  | [], chars => .ok (value, chars)
  | _ :: _, [] => failBefore .endInValue []
  | letter :: letters, c :: rest =>
      if c = letter then word value letters rest else failAt .badWord (c :: rest)

/-! ## Numbers -/

/-- A decimal literal in parts: the digits before the point, the digits after it
if there is one, and the signed exponent if there is one. -/
structure Literal where
  negative : Bool
  whole : List Char
  fraction : Option (List Char)
  exponent : Option (Bool × List Char)
deriving Repr

/-- Read the digits before the point: a zero that stands alone or digits that
start with another digit. -/
def wholeDigits : List Char → Attempt (Parsed (List Char))
  | [] => failBefore .endInValue []
  | c :: rest =>
      if c = '0' then
        if rest.head?.any isDigit then failAt .badNumber rest else .ok (['0'], rest)
      else if isDigit c then
        .ok (c :: rest.takeWhile isDigit, rest.dropWhile isDigit)
      else failAt .badNumber (c :: rest)

/-- Read a point and the digits behind it, of which there must be one. -/
def fractionDigits : List Char → Attempt (Parsed (Option (List Char)))
  | '.' :: rest =>
      match rest.takeWhile isDigit with
      | [] =>
          match rest with
          | [] => failBefore .endInValue []
          | c :: after => failAt .badNumber (c :: after)
      | digits => .ok (some digits, rest.dropWhile isDigit)
  | chars => .ok (none, chars)

/-- Leave out the sign of an exponent; the result tells whether the exponent is
negative. -/
def exponentSign : List Char → Bool × List Char
  | '+' :: rest => (false, rest)
  | '-' :: rest => (true, rest)
  | chars => (false, chars)

/-- Read the digits of an exponent, of which there must be one. -/
def exponentDigits (negative : Bool) : List Char → Attempt (Parsed (Option (Bool × List Char)))
  | [] => failBefore .endInValue []
  | c :: rest =>
      if isDigit c then
        .ok (some (negative, c :: rest.takeWhile isDigit), rest.dropWhile isDigit)
      else failAt .badNumber (c :: rest)

/-- Read an exponent if there is one. -/
def exponentPart : List Char → Attempt (Parsed (Option (Bool × List Char)))
  | [] => .ok (none, [])
  | c :: rest =>
      if c = 'e' ∨ c = 'E' then
        let (negative, digits) := exponentSign rest
        exponentDigits negative digits
      else .ok (none, c :: rest)

/-- Read the parts of a literal behind its sign. -/
def literal (negative : Bool) (chars : List Char) : Attempt (Parsed Literal) := do
  let (whole, rest) ← wholeDigits chars
  let (fraction, rest) ← fractionDigits rest
  let (exponent, rest) ← exponentPart rest
  return (⟨negative, whole, fraction, exponent⟩, rest)

/-- The number that digits stand for. -/
def digitsValue (digits : List Char) : Nat :=
  digits.foldl (fun value digit => value * 10 + digitValue digit) 0

/-- The largest exponent that is looked at digit by digit. -/
def maxExponent : Nat := twoTo 31 - 1

/-- The digits of an exponent behind the first one that takes it beyond
`maxExponent`; `none` if no digit does. -/
def exponentOverflow (value : Nat) : List Char → Option (List Char)
  | [] => none
  | digit :: rest =>
      let extended := value * 10 + digitValue digit
      if maxExponent < extended then some rest else exponentOverflow extended rest

/-- The significand of a literal and the power of ten that its digits leave
over, and whether all digits before the point were absorbed. -/
def Literal.significand (parts : Literal) : Nat × Int × Bool :=
  let (whole, dropped) := absorb 0 parts.whole
  let fraction := parts.fraction.getD []
  let (significand, ignored) := absorb whole fraction
  (significand, (dropped.length : Int) - (fraction.length - ignored.length : Nat),
    dropped.isEmpty)

/-- The value of a literal in front of the given characters.  Without point and
exponent it is an integer if it fits; minus zero is not an integer. -/
def Literal.value (parts : Literal) (rest : List Char) : Attempt Number :=
  let (significand, power, complete) := parts.significand
  let float (power : Int) : Attempt Number :=
    match Binary64.ofLiteral significand power with
    | some magnitude => .ok (.float parts.negative magnitude)
    | none => failBefore .numberOutOfRange rest
  match parts.fraction, parts.exponent with
  | _, some (negative, digits) =>
      match exponentOverflow 0 digits with
      | some after =>
          if significand ≠ 0 ∧ ¬ negative then
            failBefore .numberOutOfRange (after ++ rest)
          else .ok (.float parts.negative .zero)
      | none =>
          let exponent : Int := digitsValue digits
          float (if negative then power - exponent else power + exponent)
  | some _, none => float power
  | none, none =>
      if ¬ complete then float power
      else if ¬ parts.negative then .ok (.integer significand)
      else if significand = 0 ∨ twoTo 63 < significand then float 0
      else .ok (.integer (-significand))

/-- Read a number behind its sign. -/
def number (care : Care) (negative : Bool) (chars : List Char) : Attempt (Parsed Json) := do
  let (parts, rest) ← literal negative chars
  match care with
  | .skim => return (.null, rest)
  | .keep =>
      let value ← parts.value rest
      return (.number value, rest)

/-! ## Strings -/

/-- The error for characters that do not start with four hexadecimal digits.  Four
bytes are taken before they are looked at. -/
def failInHex {α : Type} (chars : List Char) : Attempt α :=
  if width chars < 4 then failBefore .endInString []
  else .error ⟨.badEscape, .behind (width chars - 4)⟩

/-- Read four hexadecimal digits. -/
def hexWord (chars : List Char) : Attempt (Parsed Nat) :=
  match chars with
  | a :: b :: c :: d :: rest =>
      match hexValue? a, hexValue? b, hexValue? c, hexValue? d with
      | some a, some b, some c, some d => .ok (((a * 16 + b) * 16 + c) * 16 + d, rest)
      | _, _, _, _ => failInHex chars
  | _ => failInHex chars

/-- Take one expected character of the second half of a surrogate pair. -/
def pairChar (expected : Char) : List Char → Attempt (List Char)
  | [] => failBefore .endInString []
  | c :: rest => if c = expected then .ok rest else failAt .halfSurrogatePair (c :: rest)

/-- Read a character given by one or two words of UTF-16 behind the letter of
its escape. -/
def unicodeEscape (care : Care) (chars : List Char) : Attempt (Parsed Char) := do
  let (high, rest) ← hexWord chars
  match care with
  | .skim => return (Char.ofNat high, rest)
  | .keep =>
      if 0xDC00 ≤ high ∧ high ≤ 0xDFFF then failBefore .loneSurrogate rest
      else if high < 0xD800 ∨ 0xDBFF < high then return (Char.ofNat high, rest)
      else
        let rest ← pairChar '\\' rest
        let rest ← pairChar 'u' rest
        let (low, rest) ← hexWord rest
        if low < 0xDC00 ∨ 0xDFFF < low then failBefore .loneSurrogate rest
        else return (Char.ofNat ((high - 0xD800) * 0x400 + (low - 0xDC00) + 0x10000), rest)

/-- Read an escape behind its backslash. -/
def escape (care : Care) : List Char → Attempt (Parsed Char)
  | [] => failBefore .endInString []
  | c :: rest =>
      if c = '"' ∨ c = '\\' ∨ c = '/' then .ok (c, rest)
      else if c = 'b' then .ok ('\x08', rest)
      else if c = 'f' then .ok ('\x0c', rest)
      else if c = 'n' then .ok ('\x0a', rest)
      else if c = 'r' then .ok ('\x0d', rest)
      else if c = 't' then .ok ('\x09', rest)
      else if c = 'u' then unicodeEscape care rest
      else failAt .badEscape (c :: rest)

/-- Read the characters of a string up to its closing quote.  Every character
of the text is looked at once, so the length of the text bounds the steps. -/
def stringChars (care : Care) : (steps : Nat) → List Char → Attempt (Parsed (List Char))
  | 0, _ => failBefore .endInString []
  | _ + 1, [] => failBefore .endInString []
  | steps + 1, c :: rest =>
      if c = '"' then .ok ([], rest)
      else if c = '\\' then do
        let (value, rest) ← escape care rest
        let (values, rest) ← stringChars care steps rest
        return (value :: values, rest)
      else if c.toNat < 0x20 then failAt .controlCharacter (c :: rest)
      else do
        let (values, rest) ← stringChars care steps rest
        return (c :: values, rest)

/-- Read a string behind its opening quote. -/
def string (care : Care) (chars : List Char) : Attempt (Parsed String) := do
  let (values, rest) ← stringChars care (chars.length + 1) chars
  return (String.ofList values, rest)

/-! ## Arrays and objects -/

/-- Read the items of an array behind its first one, up to the closing bracket.
-/
def moreItems {α : Type} (item : List Char → Attempt (Parsed α)) :
    (steps : Nat) → List Char → Attempt (Parsed (List α))
  | 0, _ => failBefore .endInArray []
  | steps + 1, chars =>
      match skipBlanks chars with
      | [] => failBefore .endInArray []
      | c :: rest =>
          if c = ']' then .ok ([], rest)
          else if c = ',' then
            match skipBlanks rest with
            | [] => failBefore .endInValue []
            | ']' :: after => failAt .trailingComma (']' :: after)
            | next => do
                let (value, rest) ← item next
                let (values, rest) ← moreItems item steps rest
                return (value :: values, rest)
          else failAt .commaOrBracketExpected (c :: rest)

/-- Read the items of an array behind its opening bracket. -/
def items {α : Type} (item : List Char → Attempt (Parsed α)) (chars : List Char) :
    Attempt (Parsed (List α)) :=
  match skipBlanks chars with
  | [] => failBefore .endInArray []
  | ']' :: rest => .ok ([], rest)
  | next => do
      let (value, rest) ← item next
      let (values, rest) ← moreItems item (rest.length + 1) rest
      return (value :: values, rest)

/-- Read the colon behind the name of a member. -/
def colon (chars : List Char) : Attempt (List Char) :=
  match skipBlanks chars with
  | [] => failBefore .endInObject []
  | c :: rest => if c = ':' then .ok rest else failAt .colonExpected (c :: rest)

/-- Read a member behind the opening quote of its name. -/
def namedMember {α : Type} (care : Care) (value : String → List Char → Attempt (Parsed α))
    (chars : List Char) : Attempt (Parsed (String × α)) := do
  let (name, rest) ← string care chars
  let rest ← colon rest
  let (result, rest) ← value name rest
  return ((name, result), rest)

/-- Read the members of an object behind its first one, up to the closing brace.
-/
def moreMembers {α : Type} (care : Care) (value : String → List Char → Attempt (Parsed α)) :
    (steps : Nat) → List Char → Attempt (Parsed (List (String × α)))
  | 0, _ => failBefore .endInObject []
  | steps + 1, chars =>
      match skipBlanks chars with
      | [] => failBefore .endInObject []
      | c :: rest =>
          if c = '}' then .ok ([], rest)
          else if c = ',' then
            match skipBlanks rest with
            | [] => failBefore .endInValue []
            | '"' :: after => do
                let (entry, rest) ← namedMember care value after
                let (entries, rest) ← moreMembers care value steps rest
                return (entry :: entries, rest)
            | '}' :: after => failAt .trailingComma ('}' :: after)
            | next => failAt .nameExpected next
          else failAt .commaOrBraceExpected (c :: rest)

/-- Read the members of an object behind its opening brace. -/
def members {α : Type} (care : Care) (value : String → List Char → Attempt (Parsed α))
    (chars : List Char) : Attempt (Parsed (List (String × α))) :=
  match skipBlanks chars with
  | [] => failBefore .endInObject []
  | '}' :: rest => .ok ([], rest)
  | '"' :: rest => do
      let (entry, rest) ← namedMember care value rest
      let (entries, rest) ← moreMembers care value (rest.length + 1) rest
      return (entry :: entries, rest)
  | next => failAt .nameExpected next

/-! ## Values -/

/-- Read a value that is neither an array nor an object. -/
def scalar (care : Care) : List Char → Attempt (Parsed Json)
  | [] => failBefore .endInValue []
  | c :: rest =>
      if c = 'n' then word .null ['u', 'l', 'l'] rest
      else if c = 't' then word (.bool true) ['r', 'u', 'e'] rest
      else if c = 'f' then word (.bool false) ['a', 'l', 's', 'e'] rest
      else if c = '-' then number care true rest
      else if isDigit c then number care false (c :: rest)
      else if c = '"' then do
        let (value, rest) ← string care rest
        return (.string value, rest)
      else failAt .valueExpected (c :: rest)

/-! ## Embedded texts -/

/-- The name of a first member that embeds a text.  Writers of documents use this
name too, so it is taken as it is. -/
def embeddingName : String := "$serde_json::private::RawValue"

/-- The characters behind the name of the first member of an object, if it embeds a
text.  The opening brace is left out already. -/
def embedding? (chars : List Char) : Option (List Char) :=
  match skipBlanks chars with
  | '"' :: rest =>
      match string .keep rest with
      | .ok (name, rest) => if name = embeddingName then some rest else none
      | .error _ => none
  | _ => none

/-- What a number is called. -/
def numberTitle (number : Number) : String :=
  match number with
  | .integer _ => s!"integer `{number.text}`"
  | .float _ _ => s!"floating point `{number.text}`"

/-- What a value is called where a text was expected. -/
def title : Json → String
  | .null => "null"
  | .bool value => s!"boolean `{value}`"
  | .number number => numberTitle number
  | .string _ => "string"
  | .array _ => "sequence"
  | .object _ => "map"

/-- Read a text that is embedded. -/
def embeddedText (chars : List Char) : Attempt (Parsed String) :=
  match skipBlanks chars with
  | '"' :: rest => string .keep rest
  | '[' :: rest => failBefore (.textExpected (title (.array []))) ('[' :: rest)
  | '{' :: rest => failBefore (.textExpected (title (.object []))) ('{' :: rest)
  | next => do
      let (found, rest) ← scalar .keep next
      failBefore (.textExpected (title found)) rest

/-- Leave out the closing brace of an object that has no further members. -/
def lastBrace (chars : List Char) : Attempt (List Char) :=
  match skipBlanks chars with
  | [] => failBefore .endInObject []
  | c :: rest =>
      if c = '}' then .ok rest
      else if c = ',' then failAt .trailingComma (c :: rest)
      else failAt .trailingText (c :: rest)

/-- Read an object that embeds a text, behind the name of its member.  An error in
the embedded text comes before one behind it. -/
def embedded (whole : String → Attempt Json) (chars : List Char) : Attempt (Parsed Json) := do
  let rest ← colon chars
  let (text, rest) ← embeddedText rest
  let value ← (whole text).mapError (·.within text)
  let rest ← lastBrace rest
  return (value, rest)

/-! ## All values -/

/-- Read a value in which arrays and objects may nest so many levels deep, and
embedded texts by a reader of their own. -/
def valueWith (whole : String → Attempt Json) (care : Care) :
    (levels : Nat) → List Char → Attempt (Parsed Json)
  | 0, chars =>
      match skipBlanks chars with
      | '[' :: rest => failAt .tooDeep ('[' :: rest)
      | '{' :: rest => failAt .tooDeep ('{' :: rest)
      | next => scalar care next
  | levels + 1, chars =>
      match skipBlanks chars with
      | '[' :: rest => do
          let (values, rest) ← items (valueWith whole care levels) rest
          return (.array values, rest)
      | '{' :: rest =>
          match care, embedding? rest with
          | .keep, some rest => embedded whole rest
          | _, _ => do
              let (entries, rest) ← members care (fun _ => valueWith whole care levels) rest
              return (.object (Fields.putAll [] entries), rest)
      | next => scalar care next

/-- The number of levels that a value of its own may have. -/
def maxLevels : Nat := 127

/-- Nothing but blanks may be left. -/
def finish (chars : List Char) : Attempt Unit :=
  match skipBlanks chars with
  | [] => .ok ()
  | rest => failAt .trailingText rest

/-- Read a text that is one value.  An embedded text is shorter than the text that
embeds it, so the length of the text bounds the texts inside each other. -/
def whole : (texts : Nat) → (text : String) → Attempt Json
  | 0, _ => failBefore .endInValue []
  | texts + 1, text => do
      let (value, rest) ← valueWith (whole texts) .keep maxLevels text.toList
      finish rest
      return value

/-- Read a value in which arrays and objects may nest so many levels deep. -/
def value (care : Care) (levels : Nat) (chars : List Char) : Attempt (Parsed Json) :=
  valueWith (whole chars.length) care levels chars

/-- Skim over a value. -/
def skim (chars : List Char) : Attempt (Parsed Unit) := do
  let (_, rest) ← value .skim chars.length chars
  return ((), rest)

/-- Read a value from the front of a text; what follows it is left. -/
def leading (chars : List Char) : Attempt (Parsed Json) := value .keep maxLevels chars

end Reader

open Reader in
/-- Read a text that is one JSON value. -/
def read (text : String) : Except SyntaxError Json := do
  let (value, rest) ← leading text.toList
  finish rest
  return value

/-- Read a text that is one JSON value, without the reason if it is not. -/
def read? (text : String) : Option Json := (read text).toOption

end Folio.Json

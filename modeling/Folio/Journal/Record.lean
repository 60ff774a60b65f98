import Folio.Json.Printer
import Folio.Json.Reader

/-!
# Records of the journal

A record holds a key and the document that was stored under it.  It is written
as a line of JSON: an object whose one member is named for the kind of the
record and holds an object with the key and the document, or an array with the
two.  Members that are not known are skimmed over.
-/

namespace Folio

/-- A stored document and the key that it was stored under. -/
structure JournalRecord where
  key : String
  document : Json
deriving Inhabited, Repr

namespace JournalRecord

open Json.Reader

/-- The JSON form of a record. -/
def toJson (entry : JournalRecord) : Json :=
  .object [("Insert", .object [("key", .string entry.key), ("doc", entry.document)])]

/-- The line of a record, without the line feed. -/
def line (entry : JournalRecord) : List Char := entry.toJson.chars

/-- A member of a record as it is read. -/
inductive Part where
  | key (value : String)
  | document (value : Json)
  | other

/-- The levels of nesting that are left for a document inside a record. -/
def documentLevels : Nat := maxLevels - 2

/-- Read the key of a record. -/
def readKey (chars : List Char) : Attempt (Parsed String) :=
  match skipBlanks chars with
  | '"' :: rest => string .keep rest
  | rest => failAt .valueExpected rest

/-- Read the document of a record. -/
def readDocument (chars : List Char) : Attempt (Parsed Json) :=
  value .keep documentLevels chars

/-- Read what belongs to a member name of a record. -/
def readPart (name : String) (chars : List Char) : Attempt (Parsed Part) := do
  if name = "key" then
    let (key, rest) ← readKey chars
    return (.key key, rest)
  else if name = "doc" then
    let (document, rest) ← readDocument chars
    return (.document document, rest)
  else
    let (_, rest) ← skim chars
    return (.other, rest)

/-- The keys among the parts of a record. -/
def keysOf (parts : List (String × Part)) : List String :=
  parts.filterMap fun part =>
    match part.2 with
    | .key value => some value
    | _ => none

/-- The documents among the parts of a record. -/
def documentsOf (parts : List (String × Part)) : List Json :=
  parts.filterMap fun part =>
    match part.2 with
    | .document value => some value
    | _ => none

/-- The record that parts make up: one key and one document. -/
def ofParts? (parts : List (String × Part)) : Option JournalRecord :=
  match keysOf parts, documentsOf parts with
  | [key], [document] => some ⟨key, document⟩
  | _, _ => none

/-- Take an expected character behind blanks. -/
def expect? (expected : Char) (chars : List Char) : Option (List Char) :=
  match skipBlanks chars with
  | [] => none
  | c :: rest => if c = expected then some rest else none

/-- Read a key and a document between brackets, behind the opening one. -/
def readPair? (chars : List Char) : Option (Parsed JournalRecord) := do
  let (key, rest) ← (readKey chars).toOption
  let rest ← expect? ',' rest
  let (document, rest) ← (readDocument rest).toOption
  let rest ← expect? ']' rest
  return (⟨key, document⟩, rest)

/-- Read a key and a document as members of an object, behind the opening brace.
-/
def readMembers? (chars : List Char) : Option (Parsed JournalRecord) := do
  let (parts, rest) ← (members .keep readPart chars).toOption
  let entry ← ofParts? parts
  return (entry, rest)

/-- Read what a record holds. -/
def readContent? (chars : List Char) : Option (Parsed JournalRecord) :=
  match skipBlanks chars with
  | '[' :: rest => readPair? rest
  | '{' :: rest => readMembers? rest
  | _ => none

/-- Read a record from its line. -/
def read? (chars : List Char) : Option JournalRecord := do
  let rest ← expect? '{' chars
  let (kind, rest) ← (readKey rest).toOption
  if kind = "Insert" then
    let rest ← expect? ':' rest
    let (entry, rest) ← readContent? rest
    let rest ← expect? '}' rest
    if skipBlanks rest = [] then some entry else none
  else none

end JournalRecord

end Folio

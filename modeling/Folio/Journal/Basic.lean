import Folio.Files.Volume
import Folio.Journal.Record
import Folio.Text.Lines
import Folio.Text.Search

/-!
# The journal

A journal is a directory of segments: the entries with the extension `log`.
Opening it starts a segment named for the time; a record is written as a line at
the end of that segment.  Replaying reads all segments in the order of their
names, and skips lines that are no records.  Every segment is reached by a path of
its own, so that one of them may be out of reach in a directory that is not.
-/

namespace Folio

open Text

/-- A journal that is open: the names that lead to its segment. -/
structure Journal where
  segment : List String
deriving DecidableEq, Inhabited, Repr

namespace Journal

/-- The extension of segments. -/
def extension : List Char := ['l', 'o', 'g']

/-- What follows the last dot of a file name, if something stands before it. -/
def extensionOf? (name : List Char) : Option (List Char) :=
  let behind := name.reverse.takeWhile (· != '.')
  match name.reverse.drop behind.length with
  | _ :: _ :: _ => some behind.reverse
  | _ => none

/-- Whether a file with this name is a segment. -/
def isSegment (name : String) : Bool := extensionOf? name.toList = some extension

/-- The name of the segment that is started at a time. -/
def segmentName (now : Nat) : String :=
  String.ofList (['w', 'a', 'l', '-'] ++ Nat.toDigits 10 now ++ '.' :: extension)

/-- Put a name in its place among names in ascending order. -/
def placeName (name : String) : List String → List String
  | [] => [name]
  | other :: rest =>
      if name < other then name :: other :: rest else other :: placeName name rest

/-- Names in ascending order. -/
def ascending (names : List String) : List String := names.foldr placeName []

/-- The segments among the names of the entries of a directory, in order. -/
def segmentNames (names : List String) : List String := (ascending names).filter isSegment

/-- What is found by reading a segment: its content, or why there is none. -/
abbrev Segment := Except FileError ByteArray

/-- The text of a segment. -/
def textOf (segment : Segment) : Except FileError String := do
  match String.fromUTF8? (← segment) with
  | some text => return text
  | none => throw .invalidText

/-- The records in the text of a segment. -/
def recordsIn (text : String) : List JournalRecord :=
  (lines text.toList).filterMap JournalRecord.read?

/-- The records in segments, one after the other. -/
def recordsOf : List Segment → Except FileError (List JournalRecord)
  | [] => .ok []
  | segment :: rest => do
      let text ← textOf segment
      let more ← recordsOf rest
      return recordsIn text ++ more

/-- The segments of the journal in a directory, in the order of their names; a
directory that is missing has none. -/
def segmentsIn (volume : Volume) (directory : Path) : Except FileError (List Segment) :=
  match volume.listDirectory directory with
  | .ok entries =>
      .ok ((segmentNames (entries.map Prod.fst)).map fun name =>
        volume.readFile (directory.join name))
  | .error .notFound => .ok []
  | .error error => .error error

/-- The records of the journal in a directory. -/
def replay (volume : Volume) (directory : Path) : Except FileError (List JournalRecord) := do
  recordsOf (← segmentsIn volume directory)

/-- Open the journal in a directory, which is made if it is missing. -/
def start (volume : Volume) (directory : Path) (now : Nat) :
    Except FileError (Volume × Journal) := do
  let (volume, _) ← volume.makeDirectories directory
  let (volume, segment) ← volume.openForAppend (directory.join (segmentName now))
  return (volume, ⟨segment⟩)

/-- The bytes of a record in a segment. -/
def bytesOf (entry : JournalRecord) : ByteArray :=
  (String.ofList (entry.line ++ ['\n'])).toUTF8

/-- Write a record at the end of the open segment.  While writing is refused
nothing is written. -/
def append (journal : Journal) (volume : Volume) (refused : Bool) (entry : JournalRecord) :
    Except FileError Volume :=
  if refused then .error .tooLarge
  else .ok (volume.append journal.segment (bytesOf entry))

/-- All lines of the journal in a directory.  A last line that is not ended runs
on into the next segment; a segment that cannot be read counts as empty. -/
def allLines (volume : Volume) (directory : Path) : List String :=
  match segmentsIn volume directory with
  | .ok segments =>
      let text := segments.flatMap fun segment =>
        match textOf segment with
        | .ok text => text.toList
        | .error _ => []
      (lines text).map String.ofList
  | .error _ => []

end Journal

end Folio

import Folio.Command.Basic
import Folio.Command.Condition
import Folio.Json.Reader
import Folio.Selection.Form
import Folio.Selection.Printer
import Folio.Store.Durable

/-!
# Running commands

A command works on what it reads: the content of a file, or the segments of a
journal.  It either writes its answer or complains; it never does both.
-/

namespace Folio

open Text

/-- Why a command fails. -/
inductive CommandError where
  | malformed (refusal : Selection.Malformed)
  | unreadable (file : String) (error : FileError)
  | unreadableInput (error : FileError)
  | notJson (error : Json.Reader.SyntaxError) (text : String)
  | notDocuments (value : Json)
  | badCondition (bad : BadCondition)
  | journal (error : FileError)

/-- What a value is called. -/
def kindOf : Json → String
  | .null => "null"
  | .bool _ => "a boolean"
  | .number _ => "a number"
  | .string _ => "a string"
  | .array _ => "an array"
  | .object _ => "an object"

/-- The wording of a failure. -/
def CommandError.message : CommandError → String
  | .malformed refusal => refusal.message
  | .unreadable file error => s!"reading {file}\n\nCaused by:\n    {error.message}"
  | .unreadableInput error => error.message
  | .notJson error text => error.message text
  | .notDocuments value => s!"expected a JSON array of documents, got {kindOf value}"
  | .badCondition bad => bad.message
  | .journal error => error.message

/-- How a command ends: the exit code and what is written. -/
structure Outcome where
  exit : Nat
  output : String := ""
  complaint : String := ""
deriving DecidableEq, Repr

/-- The outcome of a command that answers or fails. -/
def Outcome.ofResult : Except CommandError String → Outcome
  | .ok output => { exit := 0, output }
  | .error error => { exit := 1, complaint := "Error: " ++ error.message ++ "\n" }

/-- The outcome when no command is run. -/
def Outcome.ofStop : Stop → Outcome
  | .help => { exit := 0 }
  | .misuse => { exit := 2 }

namespace Command

/-- What a command reads. -/
inductive Source where
  | nothing
  | standardInput
  | file (path : String)
  | journal (directory : String)
deriving DecidableEq, Repr

/-- What a command reads. -/
def source : Command → Source
  | .parse _ _ => .nothing
  | .select options =>
      if options.input = Command.standardInput then .standardInput else .file options.input
  | .dump directory _ => .journal directory

/-- What was found where a command reads. -/
inductive Material where
  | nothing
  | content (found : Except FileError ByteArray)
  | segments (found : Except FileError (List Journal.Segment))

/-- Read a selection that may be missing. -/
def readSelection (text : Option String) : Except CommandError (Option Selection) :=
  match text with
  | none => .ok none
  | some text => (Selection.read text).mapError .malformed |>.map some

/-- The failure to read the input of `select`. -/
def inputError (input : String) (error : FileError) : CommandError :=
  if input = Command.standardInput then .unreadableInput error else .unreadable input error

/-- The text of the input of `select`. -/
def inputText (input : String) (content : Except FileError ByteArray) :
    Except CommandError String := do
  let bytes ← content.mapError (inputError input)
  match String.fromUTF8? bytes with
  | some text => return text
  | none => throw (inputError input .invalidText)

/-- The documents that a text holds. -/
def documentsOf (text : String) : Except CommandError (List Json) := do
  match ← (Json.read text).mapError (CommandError.notJson · text) with
  | .array documents => return documents
  | other => throw (.notDocuments other)

/-- Run `parse`. -/
def runParse (selection : String) (asJson : Bool) : Except CommandError String := do
  let selection ← (Selection.read selection).mapError .malformed
  return (if asJson then selection.toJson.indentedText else selection.text) ++ "\n"

/-- Run `select` on the content of its input. -/
def runSelect (options : SelectOptions) (content : Except FileError ByteArray) :
    Except CommandError String := do
  let fields ← readSelection options.fields
  let schema ← readSelection options.schema
  let documents ← documentsOf (← inputText options.input content)
  let selected ← (Condition.select documents fields options.conditions schema).mapError
    .badCondition
  return (Json.array selected).indentedText ++ "\n"

/-- The documents of a store that `dump` writes out: all of them, or those with a
key in a collection. -/
def dumped (collection : Option String) (store : Store) : List Json :=
  store.documents.filter fun document =>
    collection.all fun name =>
      startsWith (name ++ "-") ((document.stringMember? idMember).getD "")

/-- Run `dump` on the segments of a journal. -/
def runDump (collection : Option String) (segments : Except FileError (List Journal.Segment)) :
    Except CommandError String := do
  let entries ← (segments.bind Journal.recordsOf).mapError .journal
  let lines := (dumped collection (DurableStore.ofRecords entries)).map fun document =>
    document.text ++ "\n"
  return String.join lines

/-- Run a command on what it reads. -/
def runOn (command : Command) (material : Material) : Outcome :=
  match command, material with
  | .parse selection asJson, _ => .ofResult (runParse selection asJson)
  | .select options, .content found => .ofResult (runSelect options found)
  | .select options, _ => .ofResult (runSelect options (.error .notFound))
  | .dump _ collection, .segments found => .ofResult (runDump collection found)
  | .dump _ collection, _ => .ofResult (runDump collection (.ok []))

/-- What a source holds for a reader who stands where names lead on a volume. -/
def Source.gather (source : Source) (volume : Volume) (here : List String)
    (input : ByteArray) : Material :=
  match source with
  | .nothing => .nothing
  | .standardInput => .content (.ok input)
  | .file path => .content (volume.readFile (.ofText here path))
  | .journal directory =>
      .segments (Journal.segmentsIn volume (DurableStore.journalIn (.ofText here directory)))

/-- Run the command that arguments name, in a directory of a volume and with
standard input. -/
def run (arguments : List String) (volume : Volume) (here : List String)
    (input : ByteArray) : Outcome :=
  match ofArguments arguments with
  | .error stop => .ofStop stop
  | .ok command => runOn command (command.source.gather volume here input)

end Command

end Folio

import Folio.Command.Run

/-!
# The command line

The program reads what its command asks for, runs the command on it and writes
what comes of it.
-/

namespace Folio

/-- The result of reading files, with the errors that a command tells apart. -/
def tryReading {α : Type} (action : IO α) : IO (Except FileError α) := do
  match ← action.toBaseIO with
  | .ok result => return .ok result
  | .error (.noFileOrDirectory ..) => return .error .notFound
  | .error (.inappropriateType _ 21 _) => return .error .isADirectory
  | .error (.inappropriateType ..) => return .error .notADirectory
  | .error (.invalidArgument _ 36 _) => return .error .nameTooLong
  | .error (.permissionDenied ..) => return .error .denied
  | .error other => throw other

/-- The segments of the journal in a data directory. -/
def loadSegments (directory : String) : IO (Except FileError (List Journal.Segment)) := do
  let journal := System.mkFilePath [directory, "wal"]
  match ← tryReading journal.readDir with
  | .error .notFound => return .ok []
  | .error error => return .error error
  | .ok entries =>
      let names := Journal.segmentNames (entries.toList.map fun entry => entry.fileName)
      let segments ← names.mapM fun (name : String) =>
        tryReading (IO.FS.readBinFile (journal / name))
      return .ok segments

/-- Read what a command asks for. -/
def load : Command.Source → IO Command.Material
  | .nothing => return .nothing
  | .standardInput => do
      let content ← (← IO.getStdin).readBinToEnd
      return .content (.ok content)
  | .file path => return .content (← tryReading (IO.FS.readBinFile path))
  | .journal directory => return .segments (← loadSegments directory)

/-- Write what comes of a command. -/
def report (outcome : Outcome) : IO UInt32 := do
  IO.print outcome.output
  IO.eprint outcome.complaint
  return UInt32.ofNat outcome.exit

end Folio

open Folio in
/-- Run the command that the arguments name. -/
def main (arguments : List String) : IO UInt32 := do
  match Command.ofArguments arguments with
  | .error stop => report (.ofStop stop)
  | .ok command => report (Command.runOn command (← load command.source))

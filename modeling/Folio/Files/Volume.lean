import Folio.Fields
import Folio.Files.Path

/-!
# Files and directories

A volume is a tree of directories with files at its leaves.  A path is followed
step by step, and every step is taken from a directory: a file on the way is an
obstacle even for a step that would lead back.  The directory above the root is the
root itself.  The names of entries and the texts of paths have a largest size.
-/

namespace Folio

open Text

/-- Why a file cannot be read or written. -/
inductive FileError where
  | notFound
  | notADirectory
  | alreadyExists
  | isADirectory
  | nameTooLong
  | denied
  | invalidText
  | tooLarge
deriving DecidableEq, Inhabited, Repr

/-- The wording of a file error. -/
def FileError.message : FileError → String
  | .notFound => "No such file or directory (os error 2)"
  | .notADirectory => "Not a directory (os error 20)"
  | .alreadyExists => "File exists (os error 17)"
  | .isADirectory => "Is a directory (os error 21)"
  | .nameTooLong => "File name too long (os error 36)"
  | .denied => "Permission denied (os error 13)"
  | .invalidText => "stream did not contain valid UTF-8"
  | .tooLarge => "File too large (os error 27)"

/-- A file with its content, or a directory with named entries. -/
inductive Volume where
  | file (content : ByteArray)
  | directory (entries : List (String × Volume))
deriving Inhabited

namespace Volume

/-- The volume without files. -/
def empty : Volume := .directory []

/-- What stands at the end of a list of names. -/
def find? : Volume → (names : List String) → Option Volume
  | volume, [] => some volume
  | .directory entries, name :: rest =>
      (Fields.get? entries name).bind fun inner => inner.find? rest
  | .file _, _ :: _ => none

/-- Put something at the end of a list of names, whose directories are there. -/
def put (volume : Volume) (new : Volume) : (names : List String) → Volume
  | [] => new
  | name :: rest =>
      match volume with
      | .file _ => volume
      | .directory entries =>
          match Fields.get? entries name with
          | some inner => .directory (Fields.put entries name (inner.put new rest))
          | none =>
              if rest = [] then .directory (Fields.put entries name new) else volume

/-- Whether a step stays where it is. -/
def staysPut (step : String) : Bool := step = "" || step = "."

/-- The step to the directory above. -/
def stepUp : String := ".."

/-- The largest number of bytes in the name of an entry. -/
def maxNameSize : Nat := 255

/-- The largest number of bytes in the text of a path. -/
def maxPathSize : Nat := 4095

/-- Whether a name is too long for an entry. -/
def isTooLong (name : String) : Bool := maxNameSize < width name.toList

/-- Follow steps from a directory that names lead to; the result is the names
that lead to the end. -/
def follow (volume : Volume) (names : List String) :
    (steps : List String) → Except FileError (List String)
  | [] => .ok names
  | step :: rest =>
      match volume.find? names with
      | none => .error .notFound
      | some (.file _) => .error .notADirectory
      | some (.directory entries) =>
          if staysPut step then follow volume names rest
          else if step = stepUp then follow volume names.dropLast rest
          else if isTooLong step then .error .nameTooLong
          else if Fields.has entries step then follow volume (names ++ [step]) rest
          else .error .notFound

/-- What stands at the end of a path; an empty path leads nowhere. -/
def locate (volume : Volume) (path : Path) : Except FileError Volume := do
  if maxPathSize < path.size then throw .nameTooLong
  if path.isEmpty then throw .notFound
  let names ← volume.follow path.start path.steps
  match volume.find? names with
  | some found => return found
  | none => throw .notFound

/-- The content of the file at the end of a path. -/
def readFile (volume : Volume) (path : Path) : Except FileError ByteArray := do
  match ← volume.locate path with
  | .file content => return content
  | .directory _ => throw .isADirectory

/-- The entries of the directory at the end of a path. -/
def listDirectory (volume : Volume) (path : Path) :
    Except FileError (List (String × Volume)) := do
  match ← volume.locate path with
  | .directory entries => return entries
  | .file _ => throw .notADirectory

/-- Follow steps and make the directories that are missing on the way.  The
result is the volume with these directories and the names that lead to the end.
-/
def makeSteps (volume : Volume) (names : List String) :
    (steps : List String) → Except FileError (Volume × List String)
  | [] => .ok (volume, names)
  | step :: rest =>
      match volume.find? names with
      | none => .error .notFound
      | some (.file _) => .error .notADirectory
      | some (.directory entries) =>
          if staysPut step then makeSteps volume names rest
          else if step = stepUp then makeSteps volume names.dropLast rest
          else if isTooLong step then .error .nameTooLong
          else
            match Fields.get? entries step with
            | some (.directory _) => makeSteps volume (names ++ [step]) rest
            | some (.file _) =>
                .error (if rest.all staysPut then .alreadyExists else .notADirectory)
            | none =>
                makeSteps (volume.put empty (names ++ [step])) (names ++ [step]) rest

/-- Make the directory at the end of a path and those on the way to it. -/
def makeDirectories (volume : Volume) (path : Path) :
    Except FileError (Volume × List String) :=
  if maxPathSize < path.size then .error .nameTooLong
  else volume.makeSteps path.start path.steps

/-- Open the file at the end of a path for writing at its end; it is made if only
itself is missing.  The result is the volume with the file and the names that lead
to it. -/
def openForAppend (volume : Volume) (path : Path) : Except FileError (Volume × List String) := do
  if maxPathSize < path.size then throw .nameTooLong
  let names ← volume.follow path.start path.steps.dropLast
  let name := path.steps.getLast?.getD ""
  match volume.find? names with
  | none => throw .notFound
  | some (.file _) => throw .notADirectory
  | some (.directory entries) =>
      if staysPut name || name = stepUp then throw .isADirectory
      if isTooLong name then throw .nameTooLong
      match Fields.get? entries name with
      | some (.directory _) => throw .isADirectory
      | some (.file _) => return (volume, names ++ [name])
      | none => return (volume.put (.file ByteArray.empty) (names ++ [name]), names ++ [name])

/-- Write bytes at the end of a file. -/
def append (volume : Volume) (names : List String) (bytes : ByteArray) : Volume :=
  match volume.find? names with
  | some (.file content) => volume.put (.file (content ++ bytes)) names
  | _ => volume

end Volume

end Folio

import Folio.Selection.Name

/-!
# Reading selections

The text of a selection is a list of fields with commas between them, possibly
empty.  A field is a name, or a name with a colon and a selection in parentheses.
A name that is repeated at one level keeps its first place and takes its last
meaning.

Reading is one run over the tokens.  Its state holds the fields read so far at
the current level, the levels that enclose it, and what has just been read; each
step either takes the next token or refuses it, and at the end of the text some
states are complete.
-/

namespace Folio.Selection

/-- What has just been read at the current level. -/
inductive Progress where
  /-- nothing yet -/
  | start
  /-- a comma -/
  | comma
  /-- a name that may still become a group -/
  | name (text : String)
  /-- the colon behind a name -/
  | colon (text : String)
  /-- a complete group -/
  | group
deriving DecidableEq, Inhabited, Repr

/-- A level whose group is being read: its fields so far and the name of the
group. -/
structure Level where
  fields : Selection
  group : String
deriving Inhabited, Repr

/-- The state of a run over the tokens of a selection. -/
structure Reading where
  enclosing : List Level
  fields : Selection
  progress : Progress
deriving Inhabited, Repr

namespace Reading

/-- Before the first token. -/
def initial : Reading := ⟨[], [], .start⟩

/-- The fields of the current level, a name in front counting as a field taken
whole. -/
def settled (state : Reading) : Selection :=
  match state.progress with
  | .name text => Fields.put state.fields text .leaf
  | _ => state.fields

/-- Refuse a token where the current level could have ended. -/
def refuse (state : Reading) (found : Located) : Malformation :=
  match state.enclosing, found.token with
  | _ :: _, _ => .closingExpected found
  | [], .closing => .unopenedGroup found.offset
  | [], _ => .unexpected found

/-- Take a token where the current level could end: a comma goes on, a closing
parenthesis ends a group, and anything else is refused. -/
def advance (state : Reading) (found : Located) : Except Malformation Reading :=
  match found.token, state.enclosing with
  | .comma, enclosing => .ok ⟨enclosing, state.settled, .comma⟩
  | .closing, level :: enclosing =>
      .ok ⟨enclosing, Fields.put level.fields level.group (.group state.settled), .group⟩
  | _, _ => .error (state.refuse found)

/-- Take the next token. -/
def step (state : Reading) (found : Located) : Except Malformation Reading :=
  match state.progress, found.token with
  | .start, .name text => .ok ⟨state.enclosing, state.fields, .name text⟩
  | .start, .closing => state.advance found
  | .start, _ => .error (.nameExpected found)
  | .comma, .name text => .ok ⟨state.enclosing, state.fields, .name text⟩
  | .comma, _ => .error (.nameExpected found)
  | .name text, .colon => .ok ⟨state.enclosing, state.fields, .colon text⟩
  | .name _, _ => state.advance found
  | .colon text, .opening => .ok ⟨⟨state.fields, text⟩ :: state.enclosing, [], .start⟩
  | .colon text, _ => .error (.groupExpected text found)
  | .group, _ => state.advance found

/-- Take tokens one after the other. -/
def run (state : Reading) : List Located → Except Malformation Reading
  | [] => .ok state
  | found :: rest =>
      match state.step found with
      | .ok next => next.run rest
      | .error cause => .error cause

/-- The selection that has been read when the text ends. -/
def finish (state : Reading) : Except Malformation Selection :=
  match state.progress, state.enclosing with
  | .comma, _ => .error .nameMissing
  | .colon text, _ => .error (.groupMissing text)
  | _, level :: _ => .error (.unclosedGroup level.group)
  | _, [] => .ok state.settled

end Reading

/-- The selection that tokens stand for. -/
def ofTokens (tokens : List Located) : Except Malformation Selection :=
  (Reading.initial.run tokens).bind Reading.finish

/-- Read the text of a selection. -/
def read (text : String) : Except Malformed Selection :=
  (ofTokens (tokens text)).mapError fun cause => ⟨text, cause⟩

end Folio.Selection

import Folio.Command.Arguments

/-!
# Commands

There are three commands: one reads a selection, one selects from documents, and
one writes out the documents of a data directory.
-/

namespace Folio

/-- How documents are selected: where they come from, the fields that are wanted,
the conditions, and the fields that conditions may speak of. -/
structure SelectOptions where
  input : String := "-"
  fields : Option String := none
  conditions : List String := []
  schema : Option String := none
deriving DecidableEq, Repr

/-- A command. -/
inductive Command where
  | parse (selection : String) (asJson : Bool)
  | select (options : SelectOptions)
  | dump (directory : String) (collection : Option String)
deriving DecidableEq, Repr

namespace Command

/-- The input that stands for standard input. -/
def standardInput : String := "-"

/-- What `parse` takes. -/
def parseGrammar : Grammar := { flags := ["json"], least := 1, most := 1 }

/-- What `select` takes. -/
def selectGrammar : Grammar :=
  { single := ["fields", "schema"], repeated := ["where"], least := 0, most := 1 }

/-- What `dump` takes; its directory is not empty. -/
def dumpGrammar : Grammar :=
  { single := ["collection"], least := 1, most := 1, emptyOperands := false }

/-- The `parse` command. -/
def ofParseArguments (arguments : List String) : Except Stop Command := do
  let given ← parseGrammar.read arguments
  match given.operands with
  | [selection] => return .parse selection ("json" ∈ given.flags)
  | _ => throw .misuse

/-- The `select` command. -/
def ofSelectArguments (arguments : List String) : Except Stop Command := do
  let given ← selectGrammar.read arguments
  return .select {
    input := given.operands.head?.getD standardInput
    fields := given.value? "fields"
    conditions := given.allValues "where"
    schema := given.value? "schema" }

/-- The `dump` command. -/
def ofDumpArguments (arguments : List String) : Except Stop Command := do
  let given ← dumpGrammar.read arguments
  match given.operands with
  | [directory] => return .dump directory (given.value? "collection")
  | _ => throw .misuse

/-- The names of all commands. -/
def names : List String := ["parse", "select", "dump", "help"]

/-- What the `help` command comes to: it may name one command. -/
def ofHelpArguments : List String → Stop
  | [] => .help
  | [name] => if name ∈ names then .help else .misuse
  | _ => .misuse

/-- Whether an argument in front of all commands asks for help. -/
def asksHelp (argument : String) : Bool :=
  argument = "--help" ||
    match Look.of argument with
    | .short letters => letters.head? = some 'h'
    | _ => false

/-- The command that arguments name. -/
def ofArguments : List String → Except Stop Command
  | [] => .error .misuse
  | name :: arguments =>
      if name = "parse" then ofParseArguments arguments
      else if name = "select" then ofSelectArguments arguments
      else if name = "dump" then ofDumpArguments arguments
      else if name = "help" then .error (ofHelpArguments arguments)
      else .error (if asksHelp name then .help else .misuse)

end Command

end Folio

/-!
# Arguments of commands

An argument that starts with two hyphens names an option, and a value for it may
follow an equals sign or be the next argument.  Two hyphens alone end the
options.  Every other argument that starts with a hyphen and goes on is a short
option, of which there is only the one that asks for help.  All else are
operands.
-/

namespace Folio

/-- What a command takes: flags, options with one value, options that may be
repeated, how many operands, and whether an operand may be empty. -/
structure Grammar where
  flags : List String := []
  single : List String := []
  repeated : List String := []
  least : Nat
  most : Nat
  emptyOperands : Bool := true
deriving Repr

/-- Why no command is run. -/
inductive Stop where
  | help
  | misuse
deriving DecidableEq, Repr

/-- What is given to a command. -/
structure Given where
  operands : List String := []
  flags : List String := []
  values : List (String × String) := []
deriving Repr

/-- How an argument looks. -/
inductive Look where
  | operand
  | short (letters : List Char)
  | long (name : List Char)
deriving DecidableEq, Repr

namespace Look

/-- How an argument looks; two hyphens alone look like an option without a name.
-/
def of (argument : String) : Look :=
  match argument.toList with
  | '-' :: '-' :: name => .long name
  | '-' :: first :: letters => .short (first :: letters)
  | _ => .operand

end Look

namespace Given

/-- The value of an option. -/
def value? (given : Given) (name : String) : Option String :=
  (given.values.find? fun entry => entry.1 = name).map Prod.snd

/-- The values of an option that may be repeated, in order. -/
def allValues (given : Given) (name : String) : List String :=
  (given.values.filter fun entry => entry.1 = name).map Prod.snd

/-- Add a flag, which may be given once. -/
def addFlag (given : Given) (name : String) : Except Stop Given :=
  if name ∈ given.flags then .error .misuse
  else .ok { given with flags := given.flags ++ [name] }

/-- Add an operand, if the grammar has room for it. -/
def addOperand (given : Given) (grammar : Grammar) (operand : String) : Except Stop Given :=
  if operand = "" ∧ ¬ grammar.emptyOperands then .error .misuse
  else if given.operands.length < grammar.most then
    .ok { given with operands := given.operands ++ [operand] }
  else .error .misuse

/-- Add a value of an option that takes values; an option that may not be repeated
takes one. -/
def addValue (given : Given) (grammar : Grammar) (name value : String) : Except Stop Given :=
  if name ∈ grammar.repeated ∨ (given.value? name).isNone then
    .ok { given with values := given.values ++ [(name, value)] }
  else .error .misuse

end Given

namespace Grammar

/-- Whether an option takes values. -/
def takesValue (grammar : Grammar) (name : String) : Bool :=
  name ∈ grammar.single || name ∈ grammar.repeated

/-- Whether an argument may be the value of the option in front of it. -/
def canBeValue (argument : String) : Bool := Look.of argument = .operand

/-- Take an option by its name, or by its name and value around an equals sign.
-/
def takeOption (grammar : Grammar) (given : Given) (name : List Char) : Except Stop Given :=
  let front := String.ofList (name.takeWhile (· != '='))
  match name.dropWhile (· != '=') with
  | _ :: value =>
      if grammar.takesValue front then given.addValue grammar front (String.ofList value)
      else .error .misuse
  | [] =>
      if front = "help" then .error .help
      else if front ∈ grammar.flags then given.addFlag front
      else .error .misuse

/-- Take arguments one after the other. -/
def take (grammar : Grammar) (given : Given) : (arguments : List String) → Except Stop Given
  | [] => .ok given
  | argument :: rest =>
      match Look.of argument with
      | .operand => do
          let given ← given.addOperand grammar argument
          take grammar given rest
      | .short letters => .error (if letters.head? = some 'h' then .help else .misuse)
      | .long [] => rest.foldlM (fun given operand => given.addOperand grammar operand) given
      | .long name =>
          if grammar.takesValue (String.ofList name) then
            match rest with
            | [] => .error .misuse
            | value :: rest =>
                if canBeValue value then do
                  let given ← given.addValue grammar (String.ofList name) value
                  take grammar given rest
                else .error .misuse
          else do
            let given ← grammar.takeOption given name
            take grammar given rest

/-- Read the arguments of a command. -/
def read (grammar : Grammar) (arguments : List String) : Except Stop Given := do
  let given ← grammar.take {} arguments
  if given.operands.length < grammar.least then throw .misuse
  return given

end Grammar

end Folio

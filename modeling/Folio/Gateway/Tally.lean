import Folio.Collection.Basic

/-!
# Counting operations

Every operation that is run is timed, and either completed or failed.  There is a
counter for each operation and outcome.
-/

namespace Folio

/-- The operations that are counted. -/
inductive Operation where
  | create
  | delete
  | list
  | read
  | update
deriving DecidableEq, Inhabited, Repr

/-- The kinds of failure that are told apart. -/
inductive Failure where
  | conflict
  | malformedSelection
  | notFound
  | schemaMismatch
  | store
deriving DecidableEq, Inhabited, Repr

namespace Operation

/-- The name of an operation. -/
def name : Operation → String
  | .create => "create"
  | .delete => "delete"
  | .list => "list"
  | .read => "read"
  | .update => "update"

/-- All operations, in the order of their names. -/
def all : List Operation := [.create, .delete, .list, .read, .update]

end Operation

namespace Failure

/-- The name of a kind of failure. -/
def name : Failure → String
  | .conflict => "conflict"
  | .malformedSelection => "malformed_selection"
  | .notFound => "not_found"
  | .schemaMismatch => "schema_mismatch"
  | .store => "store"

/-- All kinds of failure, in the order of their names. -/
def all : List Failure := [.conflict, .malformedSelection, .notFound, .schemaMismatch, .store]

/-- The kind of a refusal. -/
def ofError : QueryError → Failure
  | .malformed _ => .malformedSelection
  | .mismatch _ _ => .schemaMismatch
  | .notFound _ _ => .notFound
  | .store (.conflict _) => .conflict
  | .store _ => .store

end Failure

/-- Add one to the count of a key. -/
def countUp {α : Type} [DecidableEq α] (counts : α → Nat) (key : α) : α → Nat :=
  fun other => if other = key then counts other + 1 else counts other

/-- The counters. -/
structure Tally where
  timed : Operation → Nat
  completed : Operation → Nat
  failed : Operation × Failure → Nat

namespace Tally

/-- All counters at zero. -/
def zero : Tally := ⟨fun _ => 0, fun _ => 0, fun _ => 0⟩

instance : Inhabited Tally := ⟨zero⟩

/-- Count an operation that was run, with its failure if it failed. -/
def count (tally : Tally) (operation : Operation) : (failure : Option Failure) → Tally
  | none =>
      { tally with
        timed := countUp tally.timed operation
        completed := countUp tally.completed operation }
  | some failure =>
      { tally with
        timed := countUp tally.timed operation
        failed := countUp tally.failed (operation, failure) }

/-- The name of a counter with the labels that tell it apart. -/
def label (counter : String) (labels : List (String × String)) : String :=
  counter ++ "\x7b" ++ ",".intercalate (labels.map fun (name, value) =>
    name ++ "=\"" ++ value ++ "\"") ++ "\x7d"

/-- The counters that are not zero, in the order of their names. -/
def lines (tally : Tally) : List (String × Nat) :=
  let timed := Operation.all.map fun operation =>
    (label "docsel_op_duration_seconds_count" [("op", operation.name)], tally.timed operation)
  let failed := Failure.all.flatMap fun failure => Operation.all.map fun operation =>
    (label "docsel_op_errors_total" [("kind", failure.name), ("op", operation.name)],
      tally.failed (operation, failure))
  let completed := Operation.all.map fun operation =>
    (label "docsel_ops_total" [("op", operation.name)], tally.completed operation)
  (timed ++ failed ++ completed).filter fun line => line.2 ≠ 0

/-- The counters as a text with a line for each. -/
def text (tally : Tally) : String :=
  String.join (tally.lines.map fun (name, value) => name ++ " " ++ toString value ++ "\n")

end Tally

end Folio

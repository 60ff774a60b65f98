import Folio.Decimal.Literal
import Folio.Store.Access
import Folio.Collection.Basic

/-!
# Starting up

A server is set up by settings that may be missing.  Starting up reads the set-up
of the collection, opens the store, declares the view of the collection in it and
then reads the address to listen on.  A data directory that cannot be opened is
no reason to stop: the documents are then kept in memory only.
-/

namespace Folio

open Text

/-- The settings of a server. -/
structure Settings where
  collection : Option String := none
  fields : Option String := none
  idField : Option String := none
  dataDirectory : Option String := none
  address : Option String := none
deriving Inhabited, Repr

/-- Where a server listens: four numbers and the number of a service. -/
structure Address where
  host : List Nat
  service : Nat
deriving DecidableEq, Repr

namespace Address

/-- The number that decimal digits stand for, up to a largest one. -/
def numberUpTo? (largest : Nat) (digits : List Char) : Option Nat :=
  if digits = [] ∨ ¬ digits.all Decimal.isDigit then none
  else
    let value := digits.foldl (fun value digit => value * 10 + Decimal.digitValue digit) 0
    if value ≤ largest then some value else none

/-- A part of a host: at most three digits, and no zero in front of others. -/
def hostPart? (digits : List Char) : Option Nat :=
  if 3 < digits.length ∨ (1 < digits.length ∧ digits.head? = some '0') then none
  else numberUpTo? 255 digits

/-- Read an address. -/
def read? (text : String) : Option Address := do
  let (host, service) ← cutAt? ':' text.toList
  let parts ← (host.splitOn '.').mapM hostPart?
  if parts.length = 4 then return ⟨parts, ← numberUpTo? 65535 service⟩ else none

/-- The address of a server that is not given one. -/
def standard : String := "0.0.0.0:8080"

end Address

/-- Why a server does not start. -/
inductive StartupError where
  | malformed (refusal : Selection.Malformed)
  | refused (error : QueryError)
  | badAddress
deriving Inhabited, Repr

/-- The wording of a reason. -/
def StartupError.message : StartupError → String
  | .malformed refusal => refusal.message
  | .refused error => error.message
  | .badAddress => "invalid socket address syntax"

/-- How starting up ends: with an address to listen on or an error, and with what
is on the volume then. -/
structure Startup where
  result : Except StartupError Address
  volume : Volume

namespace Settings

/-- The name of a collection that is not given one. -/
def standardName : String := "doc"

/-- The set-up of the collection. -/
def config (settings : Settings) : Except StartupError CollectionConfig := do
  let schema ← match settings.fields with
    | none => pure none
    | some text => (Selection.read text).mapError .malformed |>.map some
  return {
    name := settings.collection.getD standardName
    schema
    ids := match settings.idField with
      | none => .timestamped
      | some name => .field name }

/-- The durable store in the data directory, if there is one and it opens. -/
def durable? (settings : Settings) (volume : Volume) (here : List String) (now : Nat) :
    Option DurableStore :=
  settings.dataDirectory.bind fun directory =>
    (DurableStore.start volume (.ofText here directory) now).toOption

/-- The address to listen on. -/
def listenAt (settings : Settings) : Except StartupError Address :=
  match Address.read? (settings.address.getD Address.standard) with
  | some address => .ok address
  | none => .error .badAddress

end Settings

namespace Startup

/-- Declare the view of a collection in a store. -/
def prepareIn {σ : Type} [DocumentStore σ] (config : CollectionConfig) (now : Nat) (store : σ) :
    Except StartupError Unit × σ :=
  let collection : Collection := ⟨config, fun _ document => config.ids.mint now document⟩
  let (result, desk) := collection.prepare.run { store }
  (result.mapError .refused, desk.store)

/-- Start up in a directory of a volume and at a time. -/
def run (settings : Settings) (volume : Volume) (here : List String) (now : Nat) : Startup :=
  match settings.config with
  | .error error => ⟨.error error, volume⟩
  | .ok config =>
      match settings.durable? volume here now with
      | some durable =>
          let (result, durable) := prepareIn config now durable
          ⟨result.bind fun _ => settings.listenAt, durable.volume⟩
      | none =>
          let (result, _) := prepareIn config now Store.empty
          ⟨result.bind fun _ => settings.listenAt, volume⟩

/-- What is written when starting up ends with an error. -/
def complaint (startup : Startup) : Option String :=
  match startup.result with
  | .ok _ => none
  | .error error => some ("Error: " ++ error.message ++ "\n")

end Startup

end Folio

import FleetLedger.Host
import FleetLedger.KeySpace
import FleetLedger.Text.Numeral
import FleetLedger.Text.Quoted

/-!
# Configuration

A worker is configured by named variables.  Every variable but the address of the database has
something to stand in for it, a fixed value or a fact about the host, which it does whenever the
variable is not set or blank.  Values are trimmed, except the address of the database, which is taken
as it is.

The variables are checked one after the other, and the first fault is reported.  The two durations are
read before either is turned into seconds.
-/

namespace FleetLedger

/-- Why there is no configuration. -/
inductive ConfigError where
  | missing (name : String)
  | invalid (name value reason : String)
  | undetected (name : String)
  deriving Repr, DecidableEq

/-- The text of a configuration error. -/
def ConfigError.message : ConfigError → String
  | missing name => name ++ " environment variable is required"
  | invalid name value reason =>
    name ++ " has invalid value " ++ Quoted.quote value ++ ": " ++ reason
  | undetected name => "Could not detect " ++ name ++ "; set it explicitly"

/-- How a worker is set up; durations are in seconds. -/
structure Config where
  databaseUrl : String
  databaseMaxConnections : Nat
  nodeId : String
  nodeIp : String
  keys : KeySpace
  /-- How often old executions are deleted; none for never. -/
  cleanPeriod : Option Nat
  /-- How long executions are kept. -/
  expiration : Nat
  deriving Repr, DecidableEq

namespace Config

/-- The variables that are set. -/
abbrev Lookup := String → Option String

/-- The trimmed value of a variable, unless it is not set or blank. -/
def value? (vars : Lookup) (name : String) : Option String :=
  (vars name).bind Blank.trimmed?

/-- A variable that holds a whole number. -/
def number (vars : Lookup) (name : String) (greatest standard : Nat) :
    Except ConfigError Nat :=
  match value? vars name with
  | none => .ok standard
  | some value =>
    (Numeral.readNat greatest value).mapError fun fault => .invalid name value fault.message

/-- The greatest number of 32 bits. -/
def greatest32 : Nat := 4294967295

/-- The greatest number of 64 bits. -/
def greatest64 : Nat := 18446744073709551615

/-- So many units of so many seconds, if 64 bits can hold the product. -/
def seconds (name : String) (count unit : Nat) : Except ConfigError Nat :=
  if count * unit ≤ greatest64 then .ok (count * unit)
  else .error (.invalid name (toString count) "number too large")

/-- A value or the error that it is not there. -/
def orElse {α : Type} (value : Option α) (e : ConfigError) : Except ConfigError α :=
  match value with
  | some a => .ok a
  | none => .error e

/-- The address of the database: it is not trimmed, but it must not be blank. -/
def url (vars : Lookup) : Except ConfigError String :=
  orElse ((vars "DATABASE_URL").filter fun v => (Blank.trimmed? v).isSome) (.missing "DATABASE_URL")

/-- The configuration that some variables and the facts about a host make. -/
def load (vars : Lookup) (host : Host) : Except ConfigError Config := do
  let databaseUrl ← url vars
  let databaseMaxConnections ← number vars "DATABASE_MAX_CONNECTIONS" greatest32 20
  let nodeId ← orElse ((value? vars "NODE_ID").or host.machineId?) (.undetected "NODE_ID")
  let nodeIp ← orElse ((value? vars "NODE_IP").or host.outboundIp?) (.undetected "NODE_IP")
  let standard : KeySpace := {}
  let keys : KeySpace :=
    { nodes := (value? vars "NODE_KEY_PREFIX").getD standard.nodes
      groups := (value? vars "GROUP_KEY_PREFIX").getD standard.groups }
  let minutes ← number vars "LOG_CLEAN_PERIOD_MINS" greatest64 60
  let days ← number vars "LOG_EXPIRATION_DAYS" greatest64 30
  let period ← seconds "LOG_CLEAN_PERIOD_MINS" minutes 60
  let expiration ← seconds "LOG_EXPIRATION_DAYS" days 86400
  return {
    databaseUrl
    databaseMaxConnections
    nodeId
    nodeIp
    keys
    cleanPeriod := if period = 0 then none else some period
    expiration }

end Config

end FleetLedger

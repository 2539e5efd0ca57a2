import FleetLedger.Background.Membership
import FleetLedger.Background.Retention
import FleetLedger.Coordination.Entries
import FleetLedger.Coordination.Watch
import FleetLedger.Model.RecordId
import FleetLedger.Store.Memory

/-!
# Rehearsals

A rehearsal is a whole fleet in one value: both stores in memory, with their watches; the processes that
are alive; the jobs that run in the background; and two clocks, a calendar that stands still until it
is set, and a stopwatch that jobs are woken by.  Nothing in it happens by itself, so what the fleet
does under outages, slow removals or cancellations can be written down step by step and comes out the
same every time.

Outages are declared: from then on the calls that are out fail as they would if the store did not
answer.  A calendar that is set to a time before 1970 cannot be read; what tries to is broken off, and
what it had done by then stays.
-/

namespace FleetLedger

/-- A call of the document store that can be out. -/
inductive StoreCall where
  | find
  | findOne
  | count
  | insertMany
  | updateMany
  | upsert
  | deleteMany
  | createIndexes
  deriving Repr, DecidableEq

/-- A call of the key-value store that can be out. -/
inductive KeyCall where
  | get
  | scan
  | put
  | delete
  | watch
  deriving Repr, DecidableEq

/-- Calls that fail. -/
inductive Outage where
  /-- A call of the document store, for one collection or for all. -/
  | documents (call : StoreCall) (collection : Option String)
  | keys (call : KeyCall)
  deriving Repr, DecidableEq

/-- A removal that was begun. -/
structure Removal where
  filter : Filter
  /-- When it takes effect. -/
  due : Nat

/-- A retention job with the removal it waits for. -/
structure Sweeper where
  job : Retention.Job
  removal : Option Removal := none
  /-- Of sweepers that wake at the same time, the one with the lowest turn comes first. -/
  turn : Nat

/-- A membership log and the stream that it reads. -/
structure Listener where
  stream : Nat
  scope : String
  finished : Bool := false

/-- A job in the background. -/
inductive Task where
  | sweeper (s : Sweeper)
  | listener (l : Listener)

/-- A whole fleet. -/
structure Rehearsal where
  documents : Memory := {}
  entries : Entries := []
  /-- How many changes the key-value store keeps for its watches. -/
  ring : Nat := 1024
  /-- The key-value store is gone. -/
  keysGone : Bool := false
  /-- The open watches by the numbers of their streams, in the order in which they were opened. -/
  watches : List (Nat × Watch) := []
  /-- How many streams were opened. -/
  streams : Nat := 0
  outages : List Outage := []
  /-- The calendar. -/
  now : Timestamp
  /-- The stopwatch, in seconds. -/
  clock : Nat := 0
  /-- How many seconds a removal from the document store takes. -/
  removalTime : Nat := 0
  /-- How many removals from the document store were begun. -/
  removals : Nat := 0
  /-- The processes that are alive. -/
  live : List Int := []
  tasks : List Task := []
  /-- How many turns sweepers had. -/
  turns : Nat := 0
  ids : RecordId.Source := {}
  /-- What was reported. -/
  notices : List Notice := []

namespace Rehearsal

/-- What happens in a rehearsal, unless it is broken off. -/
abbrev Action := OptionT (StateM Rehearsal)

/-- Reads the calendar. -/
def today : Action Timestamp := do
  let some now := (← get).now.shown? | failure
  return now

/-- Adds to what was reported. -/
def report (s : Rehearsal) (notices : List Notice) : Rehearsal :=
  { s with notices := s.notices ++ notices }

/-- A call of the document store fails. -/
def isOut (s : Rehearsal) (call : StoreCall) (collection : String) : Bool :=
  s.outages.any fun o =>
    o == .documents call none || o == .documents call (some collection)

/-- A call of the key-value store fails. -/
def keysOut (s : Rehearsal) (call : KeyCall) : Bool :=
  s.keysGone || s.outages.contains (.keys call)

/-! ## Processes -/

/-- Starts a process; whether it was not alive. -/
def spawn (pid : Int) : Action Bool :=
  modifyGet fun s =>
    if s.live.contains pid then (false, s) else (true, { s with live := pid :: s.live })

/-- Ends a process; whether it was alive. -/
def kill (pid : Int) : Action Bool :=
  modifyGet fun s => (s.live.contains pid, { s with live := s.live.filter (· != pid) })

end Rehearsal

end FleetLedger

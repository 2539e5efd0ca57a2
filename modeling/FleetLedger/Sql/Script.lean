import FleetLedger.Ledger
import FleetLedger.Model.RecordId
import FleetLedger.Sql.Documents
import FleetLedger.Sql.Keys
import FleetLedger.Sql.Wire

/-!
# A scripted database

A script stands in for a database: it has an answer ready for each statement to come, keeps the
statements that reach it, and passes on notifications to those who listen.  With it one sees what is
said to a database, and what is made of its answers.  What needs a clock that cannot be read is broken
off.
-/

namespace FleetLedger.Sql

/-- An answer to a statement. -/
inductive Reply where
  | rows (rows : List Row)
  /-- So many rows were changed. -/
  | affected (count : Nat)
  | failure (code reason : String)

namespace Reply

/-- The rows of an answer. -/
def toRows : Reply → Except Failure (List Row)
  | rows rs => .ok (rs.map (·.map delivered))
  | affected _ => .ok []
  | failure code reason => .error (.refused code reason)

/-- How many rows an answer says were changed. -/
def toCount : Reply → Except Failure Nat
  | rows rs => .ok rs.length
  | affected n => .ok n
  | failure code reason => .error (.refused code reason)

end Reply

/-- A scripted database. -/
structure Script where
  /-- The answers to come; when there are none, no rows are found or changed. -/
  replies : List Reply := []
  /-- The statements so far. -/
  executed : List Statement := []
  /-- The watches in the order in which they were opened. -/
  listening : List Keys.Listening := []
  now : Timestamp
  ids : RecordId.Source := {}
  /-- What was reported. -/
  notices : List Notice := []

namespace Script

/-- What happens with a script, unless it is broken off. -/
abbrev Action := OptionT (StateM Script)

/-- Reads the clock. -/
def clock : Action Timestamp := do
  let some now := (← get).now.shown? | failure
  return now

/-- Takes the answer to a statement. -/
def answer (s : Statement) : Action Reply :=
  modifyGet fun script =>
    (script.replies.headD (.affected 0),
      { script with replies := script.replies.tail, executed := script.executed ++ [s.delivered] })

/-- The connection to a script. -/
def connection : Connection Action where
  fetch s := ExceptT.mk (Reply.toRows <$> answer s)
  execute s := ExceptT.mk (Reply.toCount <$> answer s)

/-- Reports something. -/
def note (n : Notice) : Action Unit :=
  modify fun script => { script with notices := script.notices ++ [n] }

/-- Makes a new id. -/
def newId : Action String := do
  let now ← clock
  modifyGet fun script =>
    let (id, ids) := script.ids.next now
    (id, { script with ids })

/-- Opens a watch. -/
def listen (scope : String) : Action Nat :=
  modifyGet fun script =>
    (script.listening.length, { script with listening := script.listening ++ [{ scope }] })

/-- The document store over a script. -/
def store : DocumentStore Action := Documents.store connection note

/-- The key-value store over a script. -/
def coordination : Coordination Action Nat := Keys.store connection listen

/-- The ledger over a script. -/
def ledger : Ledger Action where
  documents := store
  note := note
  now := Timestamp.reading <$> clock
  newId := newId

/-! ## Notifications -/

/-- Sends notifications to all who listen. -/
def notify (texts : List String) : Action Unit :=
  modify fun script => { script with listening := script.listening.map (Keys.Listening.hear texts) }

/-- Closes the connections of all who listen. -/
def hangUp : Action Unit :=
  modify fun script => { script with listening := script.listening.map Keys.Listening.lose }

/-- Takes the next event of the watch with a number. -/
def receive (stream : Nat) : Action Keys.Received :=
  modifyGet fun script =>
    match script.listening[stream]? with
    | some l =>
      let (received, l) := l.receive
      (received, { script with listening := script.listening.set stream l })
    | none => (.ended, script)

end Script

end FleetLedger.Sql

import FleetLedger.Coordination.Delivery
import FleetLedger.Coordination.Interface
import FleetLedger.Sql.Connection

/-!
# A key-value store in a database

Keys and values are rows of a table.  Whoever changes a row makes the database tell all who listen, by
a text that spells the event.  A watch listens on a connection of its own, passes on the changes within
its scope, and leaves alone whatever is no change: texts that spell no event, and texts that spell the
end of a watch, which is not for others to declare.
-/

namespace FleetLedger.Sql.Keys

variable {m : Type → Type} [Monad m]

/-! ## Statements -/

/-- Reads the value under a key. -/
def getCommand (key : String) : Statement :=
  [.word "SELECT value FROM coordination_keys WHERE key = ", .value (.text key)]

/-- Reads the entries within a scope in the order of their code points. -/
def scanCommand (scope : String) : Statement :=
  [.word "SELECT key, value FROM coordination_keys WHERE starts_with(key, ", .value (.text scope),
    .word ") ORDER BY key COLLATE \"C\" ASC"]

/-- Puts a value under a key. -/
def putCommand (key value : String) : Statement :=
  [.word "INSERT INTO coordination_keys (key, value) VALUES (", .value (.text key), .word ", ",
    .value (.text value),
    .word ") ON CONFLICT (key) DO UPDATE SET value = EXCLUDED.value, updated_at = NOW()"]

/-- Removes a key. -/
def deleteCommand (key : String) : Statement :=
  [.word "DELETE FROM coordination_keys WHERE key = ", .value (.text key)]

/-- Starts to listen. -/
def listenCommand : Statement := [.word "LISTEN \"coordination_changes\""]

/-! ## The store -/

/-- The key-value store in a database; `listen` registers a listener for a scope. -/
def store {Stream : Type} (c : Connection m) (listen : String → m Stream) :
    Coordination m Stream where
  get key := do return (← c.rows (getCommand key)).head?.map (textCell · 0)
  scan scope := do
    return (← c.rows (scanCommand scope)).map fun r => ⟨textCell r 0, textCell r 1⟩
  put key value := do
    let _ ← c.affected (putCommand key value)
  delete key := c.affected (deleteCommand key)
  watch scope := do
    let _ ← c.affected listenCommand
    listen scope

/-! ## Watches -/

/-- A watch that is told of changes by texts. -/
structure Listening where
  scope : String
  delivery : Delivery String := {}

/-- What a watcher is given next. -/
inductive Received where
  | event (e : Event)
  /-- Nothing more will come. -/
  | ended
  /-- Nothing has come yet. -/
  | pending

namespace Listening

/-- The rules of a watch: a text that spells a change within the scope is passed on as that change. -/
def rules (scope : String) : Delivery.Rules String :=
  { pick := fun text => (Event.ofText? text).filter (Event.isUnder scope) }

/-- What a watcher is told when the connection is lost. -/
def lostReason : String := "listener connection lost"

/-- Texts arrive, unless the connection is lost. -/
def hear (texts : List String) (l : Listening) : Listening :=
  if l.delivery.sourceEnd.isNone then { l with delivery := l.delivery.push texts } else l

/-- The connection is lost. -/
def lose (l : Listening) : Listening :=
  { l with delivery := { l.delivery with sourceEnd := some lostReason } }

/-- The listener fails; the watcher is told the error. -/
def fail (error : String) (l : Listening) : Listening :=
  { l with delivery := { l.delivery with sourceEnd := some error } }

/-- The watcher takes the next event. -/
def receive (l : Listening) : Received × Listening :=
  let settled := (l.delivery.settle (rules l.scope)).1
  match settled.take? with
  | some (e, delivery) => (.event e, { l with delivery })
  | none => (if settled.isOver then .ended else .pending, { l with delivery := settled })

end Listening

end FleetLedger.Sql.Keys

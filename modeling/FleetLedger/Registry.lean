import FleetLedger.Coordination.Interface
import FleetLedger.KeySpace
import FleetLedger.Model.Group
import FleetLedger.Roster
import FleetLedger.Text.Blank
import FleetLedger.Text.Numeral

/-!
# The registry of nodes

A worker announces itself by putting its process id under the presence key of its node.  Before it does
so it registers, which asks whether another live process holds the key.  A key whose value is no process
id, or the id of a process that is not alive, is held by nobody, and whoever finds it removes it.  The
three calls, registering, claiming and releasing, are separate, and nothing holds them together.

The registry also keeps the roster of nodes up to date.  That is a service to readers: a worker starts
and stops whether or not the roster could be written.
-/

namespace FleetLedger

/-- Who holds a presence key. -/
inductive Presence where
  | vacant
  | heldBy (pid : Int)
  deriving Repr, DecidableEq

/-- The process that holds the key; -1 when nobody does. -/
def Presence.pid : Presence → Int
  | vacant => -1
  | heldBy pid => pid

/-- What the value of a presence key says about who holds it. -/
inductive Holder where
  | live (pid : Int)
  | dead (pid : Int)
  | unreadable (fault : Numeral.Fault)
  deriving Repr, DecidableEq

/-- Reads the value of a presence key: a process id of 32 bits, with blanks around it or not. -/
def Holder.ofValue (isAlive : Int → Bool) (value : String) : Holder :=
  match Numeral.read (-2147483648) 2147483647 (Blank.trim value) with
  | .ok pid => if isAlive pid then live pid else dead pid
  | .error fault => unreadable fault

/-- What the registry works with: the two stores, a place to report to, a clock, and the set of live
processes.  Where the clock cannot be read, `m` has to break off. -/
structure Registry (m : Type → Type) (Stream : Type) where
  keys : KeySpace
  coordination : Coordination m Stream
  documents : DocumentStore m
  note : Notice → m Unit
  now : m Timestamp
  isAlive : m (Int → Bool)

namespace Registry

/-- The version that nodes are started with. -/
def version : String := "0.1.0"

variable {m : Type → Type} {Stream : Type} [Monad m]

/-! ## Presence -/

/-- Removes a presence key that nobody holds. -/
def vacate (r : Registry m Stream) (key : String) (notice : Notice) :
    ExceptT Error m Presence := do
  r.note notice
  let _ ← r.coordination.delete key
  return .vacant

/-- Asks who holds a node's presence key, and removes it if nobody does. -/
def register (r : Registry m Stream) (n : Node) : ExceptT Error m Presence := do
  let key := r.keys.nodeKey n.id
  match ← r.coordination.get key with
  | none => return .vacant
  | some value =>
    match Holder.ofValue (← r.isAlive) value with
    | .live pid => return .heldBy pid
    | .dead pid => r.vacate key (.stalePresence key pid)
    | .unreadable fault => r.vacate key (.corruptPresence key value fault.message)

/-- Puts the node's process id under its presence key. -/
def claim (r : Registry m Stream) (n : Node) : ExceptT Error m Unit :=
  r.coordination.put (r.keys.nodeKey n.id) (toString n.pid)

/-- Removes a node's presence key. -/
def release (r : Registry m Stream) (n : Node) : ExceptT Error m Unit := do
  let _ ← r.coordination.delete (r.keys.nodeKey n.id)

/-- Opens a stream of the changes of presence keys. -/
def watch (r : Registry m Stream) : ExceptT Error m Stream := r.coordination.watch r.keys.nodes

/-! ## The roster -/

/-- Writes a node into the roster; a failure is only reported. -/
def enroll (r : Registry m Stream) (n : Node) : m Unit := do
  match ← (Roster.save r.documents n).run with
  | .ok () => pure ()
  | .error e => r.note (.rosterFailed e.message n.id n.alive)

/-- A node that is about to start; it counts as alive from here on, whatever comes of the rest. -/
def starting (n : Node) : Node := { n with alive := true, version := version }

/-- A node that starts. -/
def started (n : Node) (t : Timestamp) : Node := { starting n with upTime := some t }

/-- A node that is about to stop. -/
def stopping (n : Node) : Node := { n with alive := false }

/-- A node that stops. -/
def stopped (n : Node) (t : Timestamp) : Node := { stopping n with downTime := some t }

/-- Notes that a node starts now. -/
def markStarted (r : Registry m Stream) (n : Node) : m Node := do
  let n := started n (← r.now)
  r.enroll n
  return n

/-- Notes that a node stops now. -/
def markStopped (r : Registry m Stream) (n : Node) : m Node := do
  let n := stopped n (← r.now)
  r.enroll n
  return n

/-- Removes a node's presence key, and the node from the roster. -/
def remove (r : Registry m Stream) (id : String) : ExceptT Error m Unit := do
  let _ ← r.coordination.delete (r.keys.nodeKey id)
  let removed ← Roster.remove r.documents id
  r.note (.nodeRemoved id removed)

/-- A node is connected when it is alive and its presence key is there. -/
def withPresence (n : Node) (present : Bool) : Node := { n with connected := n.alive && present }

/-- All nodes of the roster in the order of their ids. -/
def listNodes (r : Registry m Stream) : ExceptT Error m (List Node) := do
  let entries ← r.coordination.scan r.keys.nodes
  let present := entries.filterMap fun e => Scope.rest? r.keys.nodes e.key
  let nodes ← Roster.list r.documents
  return nodes.map fun n => withPresence n (present.contains n.id)

/-- The node with an id.  The key-value store is asked only about nodes that are alive. -/
def findNode (r : Registry m Stream) (id : String) : ExceptT Error m Node := do
  match ← Roster.find? r.documents id with
  | none => throw (.notFound "node" id)
  | some n =>
    if n.alive then
      let value ← r.coordination.get (r.keys.nodeKey id)
      return withPresence n value.isSome
    else return withPresence n false

/-! ## Groups -/

/-- Reads an entry that defines a group. -/
def groupOf (e : KeyValue) : Outcome Group :=
  (Group.ofText e.value).mapError fun fault => .corrupt e.key fault.message

/-- All groups in the order of their keys.  The first entry at fault decides. -/
def listGroups (r : Registry m Stream) : ExceptT Error m (List Group) := do
  let entries ← r.coordination.scan r.keys.groups
  settled (entries.mapM groupOf)

end Registry

end FleetLedger

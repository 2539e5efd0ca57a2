import FleetLedger.Coordination.Delivery
import FleetLedger.Notice

/-!
# Watching a store in memory

A watch on a store in memory looks at every change of the whole store and passes on those within its
scope.  The store keeps only so many changes for watchers that have not looked at them, a power of
two, and a watch for which more of them wait has missed the oldest.
-/

namespace FleetLedger

/-- A watch of a scope. -/
structure Watch where
  scope : String
  delivery : Delivery Event := {}

namespace Watch

/-- How many changes a store keeps that was asked to keep `capacity` of them. -/
def ringSize (capacity : Nat) : Nat := capacity.nextPowerOfTwo

/-- The rules of a watch on a store that keeps `ring` changes. -/
def rules (ring : Nat) (scope : String) : Delivery.Rules Event :=
  { pick := fun change => if change.isUnder scope then some change else none
    limit := some ring }

/-- What a watcher is told when the store is gone. -/
def goneReason : String := "coordination store dropped"

/-- The notice of a watch that missed changes. -/
def behind (w : Watch) (missed : List Nat) : List Notice :=
  missed.map (Notice.watcherBehind w.scope)

/-- Changes were made. -/
def push (w : Watch) (changes : List Event) : Watch :=
  { w with delivery := w.delivery.push changes }

/-- The store is gone. -/
def lose (w : Watch) : Watch :=
  { w with delivery := { w.delivery with sourceEnd := some goneReason } }

/-- Lets the forwarder act until it has to wait. -/
def settle (ring : Nat) (w : Watch) : Watch × List Notice :=
  let (delivery, missed) := w.delivery.settle (rules ring w.scope)
  ({ w with delivery }, w.behind missed)

/-- The watcher takes everything that can be delivered to it. -/
def drain (ring : Nat) (w : Watch) : List Event × Watch × List Notice :=
  let (events, delivery, missed) := w.delivery.drain (rules ring w.scope)
  (events, { w with delivery }, w.behind missed)

end Watch

end FleetLedger

import FleetLedger.Coordination.Event
import FleetLedger.Error

/-!
# The key-value store of the fleet

The workers of a fleet share a key-value store.  Each of its operations happens as a whole or fails as
a whole, and nothing spans two of them.  Whoever watches a scope is given a stream, on which the puts
and deletes of keys within the scope arrive in the order in which they were made.
-/

namespace FleetLedger

/-- The operations of a key-value store that hands out streams of the type `Stream`. -/
structure Coordination (m : Type → Type) (Stream : Type) where
  /-- The value under a key. -/
  get : String → ExceptT Error m (Option String)
  /-- The entries within a scope, in the order of their keys. -/
  scan : String → ExceptT Error m (List KeyValue)
  put : String → String → ExceptT Error m Unit
  /-- Removes a key; how many there were, one or none. -/
  delete : String → ExceptT Error m Nat
  /-- Opens a stream of the changes within a scope. -/
  watch : String → ExceptT Error m Stream

end FleetLedger

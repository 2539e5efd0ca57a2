import FleetLedger.Coordination.Event
import FleetLedger.Table

/-!
# A key-value store in memory

The entries of a key-value store in the order of their keys, and what each operation does to them.  A
change is also an event: putting always is one, deleting is one if there was something to delete.

In the order of keys the keys of a scope stand together, beginning with the scope itself, so a scan
starts there and ends at the first key outside of the scope.
-/

namespace FleetLedger

/-- What a key-value store holds. -/
abbrev Entries := Table String

namespace Entries

/-- The entries within a scope. -/
def scan (t : Entries) (scope : String) : List KeyValue :=
  ((t.dropWhile fun e => e.1 < scope).takeWhile fun e => Scope.covers scope e.1).map
    fun e => ⟨e.1, e.2⟩

/-- Puts a value under a key; what changed. -/
def put (t : Entries) (key value : String) : Entries × Event :=
  (t.insert key value, .put key value)

/-- Removes a key; what changed, if anything did. -/
def delete (t : Entries) (key : String) : Entries × Option Event :=
  if t.contains key then (t.erase key, some (.delete key)) else (t, none)

/-- The entries after a change. -/
def after (t : Entries) : Event → Entries
  | .put key value => t.insert key value
  | .delete key => t.erase key
  | .closed _ => t

end Entries

end FleetLedger

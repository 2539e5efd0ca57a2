import FleetLedger.Coordination.Event
import FleetLedger.Notice

/-!
# The membership log

A worker watches the presence keys of all nodes and reports who comes and who goes.  The report names
nodes by what follows the scope in their keys.  It ends with the last event of the stream.
-/

namespace FleetLedger.Membership

/-- The notice of a change of presence. -/
def notice (scope : String) : Event → Notice
  | .put key value => .nodeOnline (Scope.bare scope key) value
  | .delete key => .nodeOffline (Scope.bare scope key)
  | .closed reason => .membershipClosed reason

/-- The notices of a stream. -/
def notices (scope : String) (events : List Event) : List Notice := events.map (notice scope)

/-- The stream has ended. -/
def isOver (events : List Event) : Bool := events.any Event.isClosed

end FleetLedger.Membership

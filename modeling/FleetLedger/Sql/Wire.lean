import FleetLedger.Json.Parser
import FleetLedger.Json.Printer
import FleetLedger.Sql.Statement

/-!
# Values on their way to a database and back

A JSON value travels as a text and is read again where it arrives.  Everything arrives as it was sent,
except for floats: reading rounds twice, so the shortest text of a float may be read as a neighbour of
it.  Values of the other types arrive as they are.
-/

namespace FleetLedger.Sql

/-- A JSON value as it arrives. -/
def delivered (v : Json) : Json := (Json.ofText? v.text).getD v

/-- A value beside a statement as it arrives. -/
def Bind.delivered : Bind → Bind
  | .jsonb v => .jsonb (Sql.delivered v)
  | other => other

/-- A piece of a statement as it arrives. -/
def Piece.delivered : Piece → Piece
  | .value bind => .value bind.delivered
  | other => other

namespace Statement

/-- A statement as it arrives. -/
def delivered (s : Statement) : Statement := s.map Piece.delivered

end Statement

end FleetLedger.Sql

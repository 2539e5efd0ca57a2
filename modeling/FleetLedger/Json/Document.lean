import FleetLedger.Json.Basic
import FleetLedger.Table

/-!
# Documents

A document is the field list of an object: a table of values.  A field may be missing, and it may be
null; most readers do not tell these apart.
-/

namespace FleetLedger

/-- The fields of an object, in ascending order of their names. -/
abbrev Document := Table Json

namespace Document

/-- The value of a field, null when it is missing. -/
def getOrNull (d : Document) (name : String) : Json := (d.get? name).getD .null

/-- Sets a field unless it is there. -/
def insertIfMissing (d : Document) (name : String) (value : Json) : Document :=
  if d.contains name then d else d.insert name value

end Document

end FleetLedger

import FleetLedger.Document.Update
import FleetLedger.Sql.Statement

/-!
# Changes

What an update makes of a document is computed by the database from the column that holds it.  Setting
fields lays them over the document.  Adding to counters builds an object of the new counts, each from
the old document, and lays that over it; a counter that is missing or null counts from zero.
-/

namespace FleetLedger.Sql

/-- The new value of a document. -/
inductive Change where
  | unchanged
  /-- Lays fields over the document. -/
  | merged (fields : Document)
  /-- Lays new counts over the document. -/
  | counted (deltas : List (String × Int))

namespace Change

/-- The change that an update makes. -/
def ofUpdate : Update → Change
  | .set fields => merged fields
  | .inc [] => unchanged
  | .inc deltas => counted deltas

/-- The name of a counter and its new count. -/
def countPieces (column : String) : String × Int → Statement
  | (field, delta) =>
    [.literal field, .word (", COALESCE((" ++ column ++ " ->> "), .literal field,
      .word ")::bigint, 0) + ", .value (.int8 delta)]

/-- The text of a change to the document in a column. -/
def pieces (column : String) : Change → Statement
  | unchanged => [.word column]
  | merged fields => [.word (column ++ " || "), .value (.jsonb (.object fields))]
  | counted deltas =>
    .word (column ++ " || jsonb_build_object(") ::
      Statement.separatedBy ", " (deltas.map (countPieces column)) ++ [.word ")"]

end Change

end FleetLedger.Sql

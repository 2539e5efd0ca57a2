import FleetLedger.Sql.Change
import FleetLedger.Sql.Predicate

/-!
# Commands on documents

All collections share one table, with one document a row.  Rows have ascending ids, so the order of
ids is the order of insertion; it decides wherever a sort order leaves rows equal.

Counts and lengths that 63 bits do not hold are cut down to the greatest number that they do hold.
-/

namespace FleetLedger.Sql

/-- The fields that a search leaves out. -/
def projection : List String → Statement
  | [] => [.word "doc"]
  | fields => [.word "doc - ", .value (.textArray fields), .word "::text[]"]

/-- The direction of a sort key, with missing fields at the end where null is. -/
def directionText : Direction → String
  | .ascending => " ASC NULLS FIRST, "
  | .descending => " DESC NULLS LAST, "

/-- The order of rows. -/
def ordering (keys : List SortKey) : Statement :=
  (keys.flatMap fun k =>
    Statement.field "doc" k.field ++ [.word (directionText k.direction)]) ++ [.word "id ASC"]

/-- A number within 63 bits. -/
def bigint (n : Nat) : Bind := .int8 (min n 9223372036854775807)

/-- The part of the found rows that is returned. -/
def paging (skip : Nat) (limit : Option Nat) : Statement :=
  (if skip = 0 then [] else [.word " OFFSET ", .value (bigint skip)]) ++
  (match limit with
    | some n => [.word " LIMIT ", .value (bigint n)]
    | none => [])

/-- The rows of a collection that a filter holds of. -/
def scopeText (collection : String) (f : Filter) : Statement :=
  (Predicate.scope collection f).pieces

/-- Searches a collection. -/
def findCommand (collection : String) (f : Filter) (s : Selection) : Statement :=
  .word "SELECT " :: projection s.exclude ++ .word " FROM documents WHERE " ::
    scopeText collection f ++ .word " ORDER BY " :: ordering s.sort ++ paging s.skip s.limit

/-- Counts rows of a collection. -/
def countCommand (collection : String) (f : Filter) : Statement :=
  .word "SELECT COUNT(*) FROM documents WHERE " :: scopeText collection f

/-- One row to insert. -/
def rowPieces (collection : String) (d : Document) : Statement :=
  [.word "(", .value (.text collection), .word ", ", .value (.jsonb (.object d)), .word ")"]

/-- Inserts documents, of which there is at least one. -/
def insertCommand (collection : String) (docs : List Document) : Statement :=
  .word "INSERT INTO documents (collection, doc) VALUES " ::
    Statement.separatedBy ", " (docs.map (rowPieces collection))

/-- Sets fields. -/
def updateCommand (collection : String) (f : Filter) (fields : Document) : Statement :=
  .word "UPDATE documents SET doc = " :: (Change.merged fields).pieces "doc" ++
    .word ", updated_at = NOW() WHERE " :: scopeText collection f

/-- Updates the first row that the filter holds of, and inserts a new one only if there is none, all
in one statement. -/
def upsertCommand (collection : String) (f : Filter) (u : Update) : Statement :=
  .word "WITH target AS (SELECT id FROM documents WHERE " :: scopeText collection f ++
    .word (" ORDER BY id LIMIT 1 FOR UPDATE), " ++
      "updated AS (UPDATE documents d SET doc = ") :: (Change.ofUpdate u).pieces "d.doc" ++
    [.word (", updated_at = NOW() FROM target WHERE d.id = target.id RETURNING d.id) " ++
        "INSERT INTO documents (collection, doc) SELECT "),
      .value (.text collection), .word ", ", .value (.jsonb (.object (u.seed f))),
      .word " WHERE NOT EXISTS (SELECT 1 FROM updated)"]

/-- Removes rows. -/
def deleteCommand (collection : String) (f : Filter) : Statement :=
  .word "DELETE FROM documents WHERE " :: scopeText collection f

/-! ## Indexes -/

/-- A character of an index name: ASCII letters in lower case, and digits; anything else is an
underscore. -/
def identifierChar (c : Char) : Char := if c.isAlphanum then c.toLower else '_'

/-- A text as a part of an index name. -/
def identifier (s : String) : String := String.ofList (s.toList.map identifierChar)

/-- The name of the index of a field. -/
def indexName (collection field : String) : String :=
  "idx_documents_" ++ identifier collection ++ "_" ++ identifier field

/-- Makes the index of a field, unless there is one of its name. -/
def indexCommand (collection field : String) : Statement :=
  .word ("CREATE INDEX IF NOT EXISTS " ++ indexName collection field ++
    " ON documents (collection, ") :: Statement.field "doc" field ++ [.word ")"]

end FleetLedger.Sql

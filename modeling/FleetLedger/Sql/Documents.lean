import FleetLedger.Json.Printer
import FleetLedger.Sql.Commands
import FleetLedger.Sql.Connection
import FleetLedger.Store.Interface

/-!
# A document store in a database

Each operation is one statement, but for two.  Indexes are made one by one, up to the first failure.
And an upsert whose insert finds that someone else has just inserted the row is tried once more, since
then there is a row to update.
-/

namespace FleetLedger.Sql.Documents

variable {m : Type → Type} [Monad m]

/-- The document in a row. -/
def ofRow (collection : String) (r : Row) : Outcome Document :=
  match cell r 0 with
  | .object fields => .ok fields
  | other => .error (.corrupt collection ("expected a JSON object, got " ++ other.text))

/-- Searches a collection. -/
def find (c : Connection m) (collection : String) (f : Filter) (s : Selection) :
    ExceptT Error m (List Document) := do
  settled ((← c.rows (findCommand collection f s)).mapM (ofRow collection))

/-- The first of the documents that a filter holds of. -/
def findOne (c : Connection m) (collection : String) (f : Filter) :
    ExceptT Error m (Option Document) := do
  return (← find c collection f { limit := some 1 }).head?

/-- Counts documents; a negative count is no count. -/
def count (c : Connection m) (collection : String) (f : Filter) : ExceptT Error m Nat := do
  match ← c.rows (countCommand collection f) with
  | [] => throw Failure.noRow.error
  | r :: _ => return ((cell r 0).signed?.getD 0).toNat

/-- Inserts documents; for none there is nothing to say to the database. -/
def insertMany (c : Connection m) (collection : String) (docs : List Document) :
    ExceptT Error m Unit := do
  if docs.isEmpty then return
  let _ ← c.affected (insertCommand collection docs)

/-- Updates a document or inserts one, in at most two attempts. -/
def upsert (c : Connection m) (note : Notice → m Unit) (collection : String) (f : Filter)
    (u : Update) : ExceptT Error m Unit := do
  match ← (c.execute (upsertCommand collection f u)).run with
  | .ok _ => return
  | .error e =>
    if e.isDuplicate then
      note (.upsertRaceLost e.message collection)
      let _ ← c.affected (upsertCommand collection f u)
    else throw e.error

/-- Makes indexes. -/
def createIndexes (c : Connection m) (collection : String) (fields : List String) :
    ExceptT Error m Unit :=
  fields.forM fun field => do
    let _ ← c.affected (indexCommand collection field)

/-- The document store in a database. -/
def store (c : Connection m) (note : Notice → m Unit) : DocumentStore m where
  find := find c
  findOne := findOne c
  count := count c
  insertMany := insertMany c
  updateMany collection f fields := c.affected (updateCommand collection f fields)
  upsert := upsert c note
  deleteMany collection f := c.affected (deleteCommand collection f)
  createIndexes := createIndexes c

end FleetLedger.Sql.Documents

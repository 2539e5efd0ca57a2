import FleetLedger.Document.Update
import FleetLedger.Error

/-!
# Document stores

A document store keeps collections of documents, each in the order in which they were inserted.
Whatever keeps them, it offers these eight operations, each of which happens as a whole or fails as a
whole.  The operations run in some monad `m`, which is where a store has its state, its connection or
its failures.
-/

namespace FleetLedger

/-- The operations of a document store. -/
structure DocumentStore (m : Type → Type) where
  /-- The documents that a filter holds of, as a selection returns them. -/
  find : String → Filter → Selection → ExceptT Error m (List Document)
  /-- The first document that a filter holds of. -/
  findOne : String → Filter → ExceptT Error m (Option Document)
  /-- How many documents a filter holds of. -/
  count : String → Filter → ExceptT Error m Nat
  insertMany : String → List Document → ExceptT Error m Unit
  /-- Sets fields of all documents that a filter holds of; how many these were. -/
  updateMany : String → Filter → Document → ExceptT Error m Nat
  /-- Updates the first document that a filter holds of, or inserts one that it pins. -/
  upsert : String → Filter → Update → ExceptT Error m Unit
  /-- Removes all documents that a filter holds of; how many these were. -/
  deleteMany : String → Filter → ExceptT Error m Nat
  /-- Makes an index for each field that has none. -/
  createIndexes : String → List String → ExceptT Error m Unit

end FleetLedger

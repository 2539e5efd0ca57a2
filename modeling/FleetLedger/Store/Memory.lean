import FleetLedger.Store.Interface

/-!
# A document store in memory

The plainest document store: each collection is the list of its documents.  Its operations are
functions from what is stored to what is stored after them, and none of them can fail.

Patterns that cannot be read are reported when a filter is put to use.  Searching always does that;
changing or removing documents does it only in a collection that exists.
-/

namespace FleetLedger

/-- What is stored: documents and the names of indexed fields, by collection. -/
structure Memory where
  collections : Table (List Document) := []
  indexes : Table (Table Unit) := []

namespace Memory

/-- The documents of a collection. -/
def rows (s : Memory) (collection : String) : List Document :=
  (s.collections.get? collection).getD []

/-- Replaces the documents of a collection. -/
def setRows (s : Memory) (collection : String) (docs : List Document) : Memory :=
  { s with collections := s.collections.insert collection docs }

/-- The documents that a filter holds of, as a selection returns them. -/
def find (s : Memory) (collection : String) (f : Filter) (selection : Selection) :
    List Document :=
  selection.apply ((s.rows collection).filter f.holds)

/-- The first document that a filter holds of. -/
def findOne (s : Memory) (collection : String) (f : Filter) : Option Document :=
  (s.rows collection).find? f.holds

/-- How many documents a filter holds of. -/
def count (s : Memory) (collection : String) (f : Filter) : Nat :=
  (s.rows collection).countP f.holds

/-- Adds documents at the end of a collection. -/
def insertMany (s : Memory) (collection : String) (docs : List Document) : Memory :=
  s.setRows collection (s.rows collection ++ docs)

/-- Sets fields of all documents that a filter holds of. -/
def updateMany (s : Memory) (collection : String) (f : Filter) (fields : Document) :
    Memory × Nat :=
  match s.collections.get? collection with
  | none => (s, 0)
  | some docs =>
    (s.setRows collection (docs.map fun d => if f.holds d then (Update.set fields).apply d else d),
      docs.countP f.holds)

/-- Updates the first document that a filter holds of; if it holds of none, the document it pins
comes last. -/
def upsertRows (f : Filter) (u : Update) : List Document → List Document
  | [] => [u.seed f]
  | d :: ds => if f.holds d then u.apply d :: ds else d :: upsertRows f u ds

/-- Updates one document of a collection, or inserts it. -/
def upsert (s : Memory) (collection : String) (f : Filter) (u : Update) : Memory :=
  s.setRows collection (upsertRows f u (s.rows collection))

/-- Removes all documents that a filter holds of. -/
def deleteMany (s : Memory) (collection : String) (f : Filter) : Memory × Nat :=
  match s.collections.get? collection with
  | none => (s, 0)
  | some docs =>
    (s.setRows collection (docs.filter fun d => !f.holds d), docs.countP f.holds)

/-- The indexed fields of a collection, in the order of their names. -/
def indexedFields (s : Memory) (collection : String) : List String :=
  ((s.indexes.get? collection).getD []).map (·.1)

/-- Makes an index for each field that has none. -/
def createIndexes (s : Memory) (collection : String) (fields : List String) : Memory :=
  let old := (s.indexes.get? collection).getD []
  { s with indexes := s.indexes.insert collection (old.merge (fields.map (·, ()))) }

/-- The operations on what is stored, as those of a document store. -/
def store : DocumentStore (StateM Memory) where
  find c f selection := ExceptT.lift (modifyGet fun s => (s.find c f selection, s))
  findOne c f := ExceptT.lift (modifyGet fun s => (s.findOne c f, s))
  count c f := ExceptT.lift (modifyGet fun s => (s.count c f, s))
  insertMany c docs := ExceptT.lift (modify (·.insertMany c docs))
  updateMany c f fields :=
    ExceptT.lift (modifyGet fun s => ((s.updateMany c f fields).2, (s.updateMany c f fields).1))
  upsert c f u := ExceptT.lift (modify (·.upsert c f u))
  deleteMany c f := ExceptT.lift (modifyGet fun s => ((s.deleteMany c f).2, (s.deleteMany c f).1))
  createIndexes c fields := ExceptT.lift (modify (·.createIndexes c fields))

/-! ## What is stored afterwards

Each operation is described by the documents of a collection after it; the other collections stay as
they were.  A collection that does not exist has no documents. -/

/-- A collection holds what it was given. -/
theorem rows_setRows (s : Memory) (collection other : String) (docs : List Document) :
    (s.setRows collection docs).rows other = if collection = other then docs else s.rows other := by
  simp only [rows, setRows, Table.get?_insert]
  split <;> simp

/-- Inserted documents come last. -/
theorem rows_insertMany (s : Memory) (collection other : String) (docs : List Document) :
    (s.insertMany collection docs).rows other
      = if collection = other then s.rows collection ++ docs else s.rows other :=
  rows_setRows ..

/-- An upsert changes one document or adds one. -/
theorem rows_upsert (s : Memory) (collection other : String) (f : Filter) (u : Update) :
    (s.upsert collection f u).rows other
      = if collection = other then upsertRows f u (s.rows collection) else s.rows other :=
  rows_setRows ..

/-- Fields are set where the filter holds. -/
theorem rows_updateMany (s : Memory) (collection other : String) (f : Filter) (fields : Document) :
    (s.updateMany collection f fields).1.rows other
      = if collection = other then
          (s.rows collection).map fun d => if f.holds d then (Update.set fields).apply d else d
        else s.rows other := by
  unfold updateMany
  split
  · rename_i h
    split
    · rename_i he
      subst he
      simp [rows, h]
    · rfl
  · rename_i docs h
    rw [rows_setRows]
    split
    · simp [rows, h]
    · rfl

/-- What remains are the documents that the filter does not hold of. -/
theorem rows_deleteMany (s : Memory) (collection other : String) (f : Filter) :
    (s.deleteMany collection f).1.rows other
      = if collection = other then (s.rows collection).filter fun d => !f.holds d
        else s.rows other := by
  unfold deleteMany
  split
  · rename_i h
    split
    · rename_i he
      subst he
      simp [rows, h]
    · rfl
  · rename_i docs h
    rw [rows_setRows]
    split
    · simp [rows, h]
    · rfl

/-- The number that is returned is that of the documents that the filter holds of. -/
theorem snd_updateMany (s : Memory) (collection : String) (f : Filter) (fields : Document) :
    (s.updateMany collection f fields).2 = (s.rows collection).countP f.holds := by
  unfold updateMany rows
  split <;> simp [*]

theorem snd_deleteMany (s : Memory) (collection : String) (f : Filter) :
    (s.deleteMany collection f).2 = (s.rows collection).countP f.holds := by
  unfold deleteMany rows
  split <;> simp [*]

/-! ## Reports -/

/-- What is reported when a filter is used to change a collection. -/
def changeNotices (s : Memory) (collection : String) (f : Filter) : List Notice :=
  if s.collections.contains collection then f.notices else []

end Memory

end FleetLedger

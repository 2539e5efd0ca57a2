import FleetLedger.Document.Filter

/-!
# Updates and selections

An update sets fields or adds to counters.  Adding treats a field as zero when it is missing or is no
integer of the signed range; the additions are made one after the other, so a counter named twice
grows twice.

A selection says what a search returns of the documents it found: in which order, from where on, how
many, and without which fields.
-/

namespace FleetLedger

/-- A change to a document. -/
inductive Update where
  | set (fields : Document)
  | inc (deltas : List (String × Int))
  deriving Inhabited

namespace Update

/-- Adds to a counter.  Sums are whole numbers of any size.  A store counts in 64 bits with a sign, and
what it does with a sum beyond them is left open: whoever reads a counter assumes that there is none. -/
def add (d : Document) (field : String) (delta : Int) : Document :=
  d.insert field (.int (((d.get? field).bind Json.signed?).getD 0 + delta))

/-- The document after the update. -/
def apply : Update → Document → Document
  | set fields, d => d.merge fields
  | inc deltas, d => deltas.foldl (fun d (field, delta) => add d field delta) d

/-- The document that takes the place of none that the filter holds of. -/
def seed (u : Update) (f : Filter) : Document := u.apply f.pinned

end Update

/-- What a search returns of the documents it found. -/
structure Selection where
  exclude : List String := []
  sort : List SortKey := []
  skip : Nat := 0
  limit : Option Nat := none
  deriving Inhabited

namespace Selection

/-- The documents that a search returns of those it found. -/
def apply (s : Selection) (docs : List Document) : List Document :=
  let sorted := if s.sort.isEmpty then docs else Document.sort s.sort docs
  let rest := sorted.drop s.skip
  let page := match s.limit with
    | some n => rest.take n
    | none => rest
  page.map fun d => s.exclude.foldl Table.erase d

end Selection

end FleetLedger

import FleetLedger.Document.Stored

/-!
# Tallies

A tally counts executions: all of them, the successful ones and the failed ones.  There is one for
all time and one for each day on which something was recorded; the latter carry their day.
-/

namespace FleetLedger

/-- How many executions there were, and how they ended. -/
structure Tally where
  total : Int := 0
  succeeded : Int := 0
  failed : Int := 0
  /-- The day that is counted; none for all time. -/
  date : Option String := none
  deriving DecidableEq, Repr

namespace Tally

/-- The tally of a day on which nothing was recorded. -/
def ofDay (date : String) : Tally := { date := some date }

/-- Adds the counts of another tally; the day stays.  Sums are whole numbers of any size, while the
counts of a tally are read in 64 bits with a sign; that a sum stays within them is assumed where it
matters, and follows if fewer than 2^63 executions were recorded. -/
def absorb (t other : Tally) : Tally :=
  { t with
    total := t.total + other.total
    succeeded := t.succeeded + other.succeeded
    failed := t.failed + other.failed }

/-- The fields of a tally. -/
def toDocument (t : Tally) : Document :=
  Table.ofList <|
    [("total", .int t.total), ("successed", .int t.succeeded), ("failed", .int t.failed)] ++
    (match t.date with
      | some date => [("date", .string date)]
      | none => [])

/-- Reads the fields of a tally; a missing count is zero. -/
def decoder : Decoding.Decoder Tally :=
  Tally.mk
    <$> Decoding.withDefault "total" 0 Decoding.int64
    <*> Decoding.withDefault "successed" 0 Decoding.int64
    <*> Decoding.withDefault "failed" 0 Decoding.int64
    <*> Decoding.optional "date" Decoding.string

end Tally

end FleetLedger

import FleetLedger.Calendar.Timestamp
import FleetLedger.Error

/-!
# Ranges of days

A range of days has both of its ends.  A range that ends before it begins is a mistake of whoever
asked, and is reported instead of being read as no days at all.
-/

namespace FleetLedger

/-- The range of days that someone asked for ends before it begins. -/
def Error.invertedDays (first last : Date) : Error :=
  .validation ("End date " ++ last.text ++ " is before begin date " ++ first.text)

/-- Every day from `first` to `last`, both included, in order. -/
def Date.through (first last : Date) : Outcome (List Date) :=
  if last.count < first.count then .error (.invertedDays first last)
  else .ok (first.upFrom ((last.count - first.count).toNat + 1))

end FleetLedger

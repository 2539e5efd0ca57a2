import FleetLedger.Calendar.Date

/-!
# Instants

A timestamp counts milliseconds from the start of 1 January 1970, in universal time.  The instants
that exist are those whose day exists: from the first millisecond of the earliest date to the last
millisecond of the latest one.  So every timestamp has a day, every date has a first instant, and
every date but the last has a first instant after it.

Clocks show fewer instants than there are, for they count up from 1970, but they show them finer: a
reading tells the nanoseconds since the last instant, too.
-/

namespace FleetLedger

/-- An instant, in milliseconds from the start of 1 January 1970. -/
structure Timestamp where
  millis : Int
  first_le : -8334601228800000 ≤ millis := by omega
  le_last : millis ≤ 8210266876799999 := by omega
  deriving DecidableEq

namespace Timestamp

/-- The instant with a given count of milliseconds, if there is one. -/
def ofMillis? (n : Int) : Option Timestamp :=
  if h : -8334601228800000 ≤ n ∧ n ≤ 8210266876799999 then some ⟨n, h.1, h.2⟩ else none

/-- The day of an instant: whole days since the start of 1970, rounded down. -/
def day (t : Timestamp) : Date :=
  { count := t.millis / 86400000
    first_le := by have := t.first_le; omega
    le_last := by have := t.le_last; omega }

/-- The counter key of the day of an instant. -/
def dayKey (t : Timestamp) : String := t.day.text

/-- What a clock shows that is set to an instant; one that is set to an instant before 1970 shows
nothing. -/
def shown? (t : Timestamp) : Option Timestamp := if 0 ≤ t.millis then some t else none

end Timestamp

/-- What a clock shows: the last instant, and the nanoseconds since then. -/
structure Reading where
  instant : Timestamp
  nanos : Nat := 0
  nanos_lt : nanos < 1000000 := by omega
  deriving DecidableEq

namespace Reading

/-- The nanoseconds since the start of 1970. -/
def count (r : Reading) : Int := r.instant.millis * 1000000 + r.nanos

/-- The instant `nanos` nanoseconds earlier, to the millisecond before it; none where that lies
before the earliest instant. -/
def back? (r : Reading) (nanos : Nat) : Option Timestamp :=
  Timestamp.ofMillis? ((r.count - nanos) / 1000000)

end Reading

/-- The reading of a clock at the very moment of an instant. -/
def Timestamp.reading (t : Timestamp) : Reading := { instant := t }

namespace Date

/-- The first instant of a date. -/
def start (d : Date) : Timestamp :=
  { millis := d.count * 86400000
    first_le := by have := d.first_le; omega
    le_last := by have := d.le_last; omega }

/-- The first instant after a date; the last date has none. -/
def nextStart? (d : Date) : Option Timestamp := d.next?.map start

end Date

end FleetLedger

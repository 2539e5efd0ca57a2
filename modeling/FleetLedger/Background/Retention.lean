import FleetLedger.Error
import FleetLedger.Notice

/-!
# The retention job

Old executions are swept away periodically.  A ticker sets the pace: its first tick is due one period
after the start, and a tick waits until the job takes it.  The job takes ticks only between sweeps, so
after a long sweep it may find one overdue.  It takes that one at once; but ticks that come late delay
all that follow, so nothing that was missed is made up for.

The job can be asked to stop.  Whenever it is free it first looks whether it was asked, and only then
whether there is a tick: so no sweep begins any more, and a sweep under way is finished first.  A sweep
that fails is reported, and that is all.  Only where the clock cannot be read does the job end of itself.

A job is a state that changes on three occasions: time has passed, a sweep has ended, the job is asked
to stop.  Times are seconds of a clock that only ever moves forward.
-/

namespace FleetLedger.Retention

/-- Ticks that come once a period. -/
structure Ticker where
  /-- Seconds from one tick to the next. -/
  period : Nat
  /-- When the next tick is due. -/
  due : Nat
  deriving Repr, DecidableEq

namespace Ticker

/-- A ticker that starts. -/
def start (now period : Nat) : Ticker := ⟨period, now + period⟩

/-- Takes the tick that is due, if there is one.  The next is due one period later: later than this
one was due, or, if this one is late, later than now. -/
def take? (k : Ticker) (now : Nat) : Option Ticker :=
  if now < k.due then none
  else if k.due < now then some { k with due := now + k.period }
  else some { k with due := k.due + k.period }

end Ticker

/-- What a job is doing. -/
inductive Phase where
  | waiting
  | sweeping (since : Nat)
  | stopped
  /-- The job has a period that no clock can measure, or found its clock unreadable. -/
  | failed
  deriving Repr, DecidableEq

/-- A retention job. -/
structure Job where
  ticker : Ticker
  /-- Seconds for which executions are kept. -/
  expiration : Nat
  phase : Phase
  /-- The job was asked to stop. -/
  asked : Bool := false
  deriving Repr, DecidableEq

/-- The longest time that a clock can add to any instant: 63 bits hold the seconds of the sum. -/
def longestPeriod : Nat := 9223372036854775806

/-- The notice of what a sweep gave. -/
def resultNotice : Outcome Nat → Notice
  | .ok 0 => .retentionIdle
  | .ok deleted => .retentionPurged deleted
  | .error e => .retentionFailed e.message

namespace Job

/-- A job that starts. -/
def start (now period expiration : Nat) : Job × List Notice :=
  let phase := if period = 0 ∨ longestPeriod < period then .failed else .waiting
  ({ ticker := .start now period, expiration, phase }, [.retentionStarted period expiration])

/-- When the job has to be woken, if it waits. -/
def due? (j : Job) : Option Nat :=
  match j.phase with
  | .waiting => some j.ticker.due
  | _ => none

/-- A job that waits looks what there is to do.  That it was asked to stop comes before any tick. -/
def turn (j : Job) (now : Nat) : Job × List Notice :=
  match j.phase with
  | .waiting =>
    if j.asked then ({ j with phase := .stopped }, [.retentionStopping])
    else
      match j.ticker.take? now with
      | some ticker => ({ j with ticker, phase := .sweeping now }, [])
      | none => (j, [])
  | _ => (j, [])

/-- A sweep has ended; whatever it gave, the job looks what there is to do next. -/
def finish (j : Job) (now : Nat) (result : Outcome Nat) : Job × List Notice :=
  match j.phase with
  | .sweeping _ =>
    let (j, notices) := { j with phase := .waiting }.turn now
    (j, resultNotice result :: notices)
  | _ => (j, [])

/-- The job is asked to stop. -/
def cancel (j : Job) (now : Nat) : Job × List Notice := { j with asked := true }.turn now

/-- The job cannot go on. -/
def crash (j : Job) : Job := { j with phase := .failed }

end Job

end FleetLedger.Retention

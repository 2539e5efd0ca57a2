import FleetLedger.Ledger
import FleetLedger.Rehearsal.Basic

/-!
# The stopwatch of a rehearsal

When the stopwatch moves on, the sweepers that are to wake meanwhile are woken at their times, one
after the other.  A removal takes as long as removals take when it is begun, and whether it fails is
decided when it takes effect.

A sweeper that was woken wakes next at a later time, for its period is at least a second.  So within a
number of seconds each sweeper wakes at most once a second, which bounds the wakings of `advance`.
-/

namespace FleetLedger

/-- When a sweeper wakes next, if it does. -/
def Sweeper.wakes? (w : Sweeper) : Option Nat :=
  match w.removal with
  | some r => some r.due
  | none => w.job.due?

namespace Rehearsal

/-! ## Sweeping -/

/-- A removal takes effect, or fails. -/
def remove (s : Rehearsal) (collection : String) (f : Filter) : Rehearsal × Outcome Nat :=
  if s.isOut .deleteMany collection then (s, .error .refused)
  else
    let (documents, n) := s.documents.deleteMany collection f
    (({ s with documents }).report (s.documents.changeNotices collection f), .ok n)

/-- A sweep is finished. -/
def finishSweep (s : Rehearsal) (w : Sweeper) (result : Outcome Nat) : Rehearsal × Sweeper :=
  let (job, notices) := w.job.finish s.clock result
  (s.report notices, { w with job, removal := none })

/-- A sweep that has begun; unless something takes time it is finished as well. -/
def beginSweep (s : Rehearsal) (w : Sweeper) : Rehearsal × Sweeper :=
  match (Ledger.sweepFilter (s.now.shown?.map Timestamp.reading) ⟨w.job.expiration, 0⟩).run with
  | none => (s, { w with job := w.job.crash })
  | some (.error e) => s.finishSweep w (.error e)
  | some (.ok filter) =>
    let s := { s with removals := s.removals + 1 }
    if s.removalTime = 0 then
      let (s, result) := s.remove Ledger.history filter
      s.finishSweep w result
    else (s, { w with removal := some ⟨filter, s.clock + s.removalTime⟩ })

/-- A sweeper goes on with what its job is to do now. -/
def proceed (s : Rehearsal) (w : Sweeper) : Rehearsal × Sweeper :=
  match w.job.phase with
  | .sweeping _ => s.beginSweep w
  | _ => (s, w)

/-- A sweeper wakes: the removal that it waits for takes effect, or else time has passed. -/
def wakeSweeper (s : Rehearsal) (w : Sweeper) : Rehearsal × Sweeper :=
  match w.removal with
  | none =>
    let (job, notices) := w.job.turn s.clock
    (s.report notices).proceed { w with job }
  | some removal =>
    let (s, result) := s.remove Ledger.history removal.filter
    let (s, w) := s.finishSweep w result
    s.proceed w

/-! ## Moving on -/

/-- A sweeper that wakes by some time: when, at which turn, and where in the list of jobs it is. -/
def wakingBy (time : Nat) : Nat × Task → Option (Nat × Nat × Nat)
  | (i, .sweeper w) =>
    match w.wakes? with
    | some t => if t ≤ time then some (t, w.turn, i) else none
    | none => none
  | _ => none

/-- Of two sweepers the one that wakes first. -/
def sooner (a b : Nat × Nat × Nat) : Nat × Nat × Nat :=
  if b.1 < a.1 ∨ b.1 = a.1 ∧ b.2.1 < a.2.1 then b else a

/-- The sweeper that wakes first, if one wakes by some time. -/
def nextWaking? (s : Rehearsal) (time : Nat) : Option (Nat × Nat × Nat) :=
  match (s.tasks.mapIdx fun i t => (i, t)).filterMap (wakingBy time) with
  | [] => none
  | w :: ws => some (ws.foldl sooner w)

/-- Wakes the job at a place in the list. -/
def wakeAt (s : Rehearsal) (i : Nat) : Rehearsal :=
  match s.tasks[i]? with
  | some (.sweeper w) =>
    let (s, w) := s.wakeSweeper w
    { s with
      tasks := s.tasks.set i (.sweeper { w with turn := s.turns })
      turns := s.turns + 1 }
  | _ => s

/-- Moves the stopwatch to a time, with at most so many wakings. -/
def advanceTo (time : Nat) : Nat → Rehearsal → Rehearsal
  | 0, s => { s with clock := time }
  | wakings + 1, s =>
    match s.nextWaking? time with
    | none => { s with clock := time }
    | some (t, _, i) => advanceTo time wakings (wakeAt { s with clock := max s.clock t } i)

/-- Moves the stopwatch on. -/
def advance (s : Rehearsal) (seconds : Nat) : Rehearsal :=
  s.advanceTo (s.clock + seconds) ((seconds + 1) * s.tasks.length)

/-! ## Jobs -/

/-- Starts a retention job; its place in the list of jobs. -/
def startSweeper (period expiration : Nat) : Action Nat :=
  modifyGet fun s =>
    let (job, notices) := Retention.Job.start s.clock period expiration
    (s.tasks.length,
      { s with
        tasks := s.tasks ++ [.sweeper { job, turn := s.turns }]
        turns := s.turns + 1
        notices := s.notices ++ notices })

/-- Starts a membership log; its place in the list of jobs. -/
def startListener (stream : Nat) (scope : String) : Action Nat :=
  modifyGet fun s =>
    (s.tasks.length, { s with tasks := s.tasks ++ [.listener { stream, scope }] })

/-- Asks a job to stop. -/
def cancel (i : Nat) : Action Unit :=
  modify fun s =>
    match s.tasks[i]? with
    | some (.sweeper w) =>
      let (job, notices) := w.job.cancel s.clock
      ({ s with tasks := s.tasks.set i (.sweeper { w with job }) }).report notices
    | some (.listener l) =>
      { s with
        tasks := s.tasks.set i (.listener { l with finished := true })
        watches := s.watches.filter (·.1 != l.stream) }
    | none => s

/-- What has become of a job. -/
inductive Progress where
  | running
  | done
  | crashed
  deriving Repr, DecidableEq

/-- What has become of a job. -/
def Progress.ofTask : Task → Progress
  | .sweeper w =>
    match w.job.phase with
    | .stopped => done
    | .failed => crashed
    | _ => running
  | .listener l => if l.finished then done else running

/-- What has become of the job at a place in the list. -/
def progress? (s : Rehearsal) (i : Nat) : Option Progress := s.tasks[i]?.map Progress.ofTask

end Rehearsal

end FleetLedger

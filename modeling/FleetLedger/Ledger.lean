import FleetLedger.Calendar.Days
import FleetLedger.Model.Latest
import FleetLedger.Model.Query
import FleetLedger.Model.Tally
import FleetLedger.Store.Interface

/-!
# The ledger of executions

The ledger keeps three views of the executions it is told of: the history, to which each execution is
added; the latest execution of each combination of node and job; and the tallies, for all time and by
day.  Recording an execution is four separate writes.  They do not depend on each other, and none of
them can make recording fail: what fails is reported, the rest is written, and whoever ran the job is
given the id in any case.

Old executions are removed by a sweep: those whose own time for it has come, and of the others those
that ended long enough ago.
-/

namespace FleetLedger

/-- What the ledger works with: a document store, a place to report to, a clock and a source of
ids.  Where the clock cannot be read, `m` has to break off. -/
structure Ledger (m : Type → Type) where
  documents : DocumentStore m
  note : Notice → m Unit
  now : m Reading
  newId : m String

namespace Ledger

/-- The collection of all executions. -/
def history : String := "jobwatch_job_log"

/-- The collection of the latest executions. -/
def latestRows : String := "jobwatch_job_latest_log"

/-- The collection of tallies. -/
def tallies : String := "jobwatch_stat"

/-- The name of the tally for all time. -/
def allTime : String := "job"

/-- The name of the tallies by day. -/
def daily : String := "job-day"

/-! ## Recording -/

/-- One of the writes that recording an execution consists of, with the report of its failure. -/
structure Write where
  collection : String
  action : List Document ⊕ Filter × Update
  failure : Error → Notice

/-- Carries out a write. -/
def Write.run {m : Type → Type} (w : Write) (db : DocumentStore m) : ExceptT Error m Unit :=
  match w.action with
  | .inl docs => db.insertMany w.collection docs
  | .inr (f, u) => db.upsert w.collection f u

/-- What an execution adds to a tally. -/
def increments (e : Execution) : Update :=
  .inc [("total", 1), (if e.success then "successed" else "failed", 1)]

/-- Adds an execution to the history. -/
def historyWrite (e : Execution) : Write :=
  { collection := history
    action := .inl [e.toDocument]
    failure := fun error => .insertFailed error.message e.id e.jobId }

/-- Makes an execution the latest one of its combination. -/
def latestWrite (e : Execution) : Write :=
  { collection := latestRows
    action := .inr (Latest.rowFilter e, .set (Latest.overwriting e))
    failure := fun error => .projectionFailed error.message e.id e.jobId e.node }

/-- Counts an execution for a day. -/
def dailyWrite (e : Execution) (today : String) : Write :=
  { collection := tallies
    action := .inr (.and [.eqString "name" daily, .eqString "date" today], increments e)
    failure := fun error => .dailyCountFailed error.message today }

/-- Counts an execution for all time. -/
def allTimeWrite (e : Execution) : Write :=
  { collection := tallies
    action := .inr (.eqString "name" allTime, increments e)
    failure := fun error => .totalCountFailed error.message }

/-- The writes that recording an execution consists of. -/
def writes (e : Execution) (today : String) : List Write :=
  [historyWrite e, latestWrite e, dailyWrite e today, allTimeWrite e]

variable {m : Type → Type} [Monad m]

/-- Carries out a write and returns the report of its failure. -/
def attempt (db : DocumentStore m) (w : Write) : m (Option Notice) := do
  match ← (w.run db).run with
  | .ok () => return none
  | .error e => return some (w.failure e)

/-- Begins to record an execution: it is given an id if it has none, and the day is looked up. -/
def prepare (l : Ledger m) (e : Execution) : m (Execution × String) := do
  let id ← if e.id.isEmpty then l.newId else pure e.id
  return ({ e with id }, (← l.now).instant.dayKey)

/-- Ends to record an execution: whatever failed is reported, and the answer is the id. -/
def conclude (l : Ledger m) (e : Execution) (failures : List (Option Notice)) : m String := do
  (failures.flatMap Option.toList).forM l.note
  return e.id

/-- Records an execution and returns its id, which it is given if it has none. -/
def record (l : Ledger m) (e : Execution) : m String := do
  let (e, today) ← l.prepare e
  let failures ← (writes e today).mapM (attempt l.documents)
  l.conclude e failures

/-- Sets the time from which on the executions of a job may be removed; how many there are. -/
def setCleanup (l : Ledger m) (jobId : String) (due : Timestamp) : ExceptT Error m Nat :=
  l.documents.updateMany history (.eqString "job_id" jobId) [("cleanup", .int due.millis)]

/-! ## Reading -/

/-- The execution with an id, with all its fields. -/
def get (l : Ledger m) (id : String) : ExceptT Error m Execution := do
  match ← l.documents.findOne history (.eqString "id" id) with
  | none => throw (.notFound "job log" id)
  | some d => settled (d.decode Execution.decoder (history ++ "/" ++ id))

/-- One page of executions, and how many there are on all pages. -/
structure Page where
  items : List Execution
  total : Nat

/-- How many pages of a given size a number of executions takes. -/
def pageCount (total size : Nat) : Nat := if size = 0 then 0 else (total + (size - 1)) / size

/-- Why there is no page. -/
inductive PageFault where
  | failed (error : Error)
  /-- The query ends on the last day of the calendar, which no instant follows. -/
  | endOfCalendar

/-- Pages have at least one execution. -/
def emptyPage : Error := .validation "Page size must be greater than zero"

/-- The greatest number of documents that can be skipped. -/
def greatestSkip : Nat := 18446744073709551615

/-- What the page with a number shows; pages are counted from one, and zero is the first, too. -/
def selectionOf (page size : Nat) (sort : List SortKey) : Selection :=
  { exclude := Execution.bulky
    sort := if sort.isEmpty then [.down "begin_time"] else sort
    skip := min ((max page 1 - 1) * size) greatestSkip
    limit := some size }

/-- The executions in documents of a view. -/
def executionsOf (latest : Bool) (docs : List Document) : Outcome (List Execution) :=
  if latest then
    docs.mapM fun d => Latest.toExecution <$> d.decode Latest.decoder latestRows
  else docs.mapM fun d => d.decode Execution.decoder history

/-- One page of the executions that a query asks for, without what was run and what it printed. -/
def list (l : Ledger m) (q : Query) (page size : Nat) (sort : List SortKey) :
    ExceptT PageFault m Page := do
  if size = 0 then throw (.failed emptyPage)
  let some filter := q.filter? | throw .endOfCalendar
  let collection := if q.latest then latestRows else history
  let total ← within (l.documents.count collection filter)
  let docs ← within (l.documents.find collection filter (selectionOf page size sort))
  let items ← within (settled (executionsOf q.latest docs))
  return { items, total }
where
  within {α : Type} (action : ExceptT Error m α) : ExceptT PageFault m α :=
    ExceptT.mk ((Except.mapError .failed ·) <$> action.run)

/-- The latest execution of each of some jobs, or of all jobs.  The rows are read in the order in
which the executions began, so where several nodes ran a job the one that began last stays. -/
def latestOf (l : Ledger m) (jobIds : List String) : ExceptT Error m (Table Latest) := do
  let filter := if jobIds.isEmpty then .all else .oneOf "job_id" jobIds
  let selection : Selection := { exclude := Execution.bulky, sort := [.up "begin_time"] }
  let docs ← l.documents.find latestRows filter selection
  let rows ← settled (docs.mapM fun d => d.decode Latest.decoder latestRows)
  return Table.ofList (rows.map fun row => (row.execution.jobId, row))

/-- The tallies in documents. -/
def talliesOf (docs : List Document) : Outcome (List Tally) :=
  docs.mapM fun d => d.decode Tally.decoder tallies

/-- The tally for all time. -/
def stats (l : Ledger m) : ExceptT Error m Tally := do
  let docs ← l.documents.find tallies (.eqString "name" allTime) {}
  return (← settled (talliesOf docs)).foldl Tally.absorb {}

/-- Adds a tally to what there is for its day; one that has no day is passed over. -/
def addByDay (sums : Table Tally) (t : Tally) : Table Tally :=
  match t.date with
  | none => sums
  | some day => sums.insert day (((sums.get? day).getD (.ofDay day)).absorb t)

/-- What there is for each of some days, in order.  It is taken out, so it is there only once. -/
def takeDays (sums : Table Tally) : List String → List Tally
  | [] => []
  | day :: days => (sums.get? day).getD (.ofDay day) :: takeDays (sums.erase day) days

/-- Holds of the tallies of days, which go by their keys. -/
def daysFilter (keys : List String) : Filter :=
  .and [.eqString "name" daily, .oneOf "date" keys]

/-- The tally of each day of a range, in order. -/
def dailyStats (l : Ledger m) (first last : Date) : ExceptT Error m (List Tally) := do
  let days ← settled (Date.through first last)
  let keys := days.map Date.text
  let docs ← l.documents.find tallies (daysFilter keys) { sort := [.up "date"] }
  let all ← settled (talliesOf docs)
  return takeDays (all.foldl addByDay []) keys

/-! ## Removing -/

/-- A length of time. -/
structure Window where
  seconds : Nat
  nanos : Nat := 0
  deriving Repr, DecidableEq

/-- The longest window that can be counted back from now: so many milliseconds that 63 bits hold
them. -/
def Window.longest : Window := ⟨9223372036854775, 807000000⟩

/-- A window that cannot be counted back at all. -/
def windowTooLong : Error :=
  .validation "Retention window out of range: Source duration value is out of range for the target type"

/-- A window that reaches back before the first instant. -/
def windowTooEarly (w : Window) : Error :=
  .validation ("Retention window of " ++ toString (w.seconds / 86400) ++
    " days reaches before the earliest representable time")

/-- The nanoseconds of a window. -/
def Window.span (w : Window) : Outcome Nat :=
  if Window.longest.seconds < w.seconds
      ∨ w.seconds = Window.longest.seconds ∧ Window.longest.nanos < w.nanos then
    .error windowTooLong
  else .ok (w.seconds * 1000000000 + w.nanos)

/-- The instant that is a window ago. -/
def cutoff (now : Reading) (w : Window) : Outcome Timestamp := do
  match now.back? (← w.span) with
  | some t => .ok t
  | none => .error (windowTooEarly w)

/-- Holds of executions that are due: their time has come, or they have none and ended by the
cutoff. -/
def dueFilter (now cutoff : Timestamp) : Filter :=
  .or [
    .and [.has "cleanup" true, .lte "cleanup" (.int now.millis)],
    .and [.has "cleanup" false, .lte "end_time" (.int cutoff.millis)]]

/-- What a sweep removes.  A window that cannot be counted back is refused before the clock is
read. -/
def sweepFilter (clock : m Reading) (w : Window) : ExceptT Error m Filter := do
  let _ ← settled w.span
  let now ← clock
  return dueFilter now.instant (← settled (cutoff now w))

/-- Removes what is due; how many executions these were. -/
def sweep (l : Ledger m) (w : Window) : ExceptT Error m Nat := do
  l.documents.deleteMany history (← sweepFilter l.now w)

/-! ## Indexes -/

/-- The fields by which each collection is searched. -/
def indexPlan : List (String × List String) :=
  [(history, ["begin_time", "hostname", "ip"]), (latestRows, ["job_id", "node", "begin_time"]),
    (tallies, ["name", "date"])]

/-- Makes the indexes of the ledger's collections; failures are only reported. -/
def ensureIndexes (l : Ledger m) : m Unit :=
  indexPlan.forM fun (collection, fields) => do
    match ← (l.documents.createIndexes collection fields).run with
    | .ok () => l.note (.indexesEnsured collection)
    | .error e => l.note (.indexesFailed e.message collection)

end Ledger

end FleetLedger

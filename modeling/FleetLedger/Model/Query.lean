import FleetLedger.Calendar.Timestamp
import FleetLedger.Document.Filter
import FleetLedger.Text.Blank

/-!
# Questions to the history

A query asks for executions by keywords in the names of hosts and jobs, by addresses and job ids, by
the days between which they ran, and by how they ended.  What it does not mention it leaves open.
Keywords are alternatives to each other, whether they concern hosts or jobs; all other conditions
have to be met together.

The last condition on days is that a run ended before the day after the given one began, and the last
day of the calendar has no day after it: for that one day there is no filter.
-/

namespace FleetLedger

/-- What is asked of the history. -/
structure Query where
  /-- Keywords in the name of the host. -/
  hostnames : List String := []
  /-- Keywords in the name of the job. -/
  names : List String := []
  ips : List String := []
  jobIds : List String := []
  /-- The first day on which runs began. -/
  firstDay : Option Date := none
  /-- The last day on which runs ended. -/
  lastDay : Option Date := none
  success : Option Bool := none
  /-- Asks for the latest executions only, not for the whole history. -/
  latest : Bool := false

namespace Query

/-- One filter for each keyword that is not blank; its characters stand for themselves. -/
def keywords (field : String) (words : List String) : List Filter :=
  (words.filterMap Blank.trimmed?).map fun w => .like field (Pattern.escape w)

/-- No condition, or all of them together. -/
def allOf : List Filter → Filter
  | [] => .all
  | clauses => .and clauses

/-- The filter for a query, given the instant before which runs have to have ended. -/
def clauses (q : Query) (ended : Option Timestamp) : List Filter :=
  let words := keywords "hostname" q.hostnames ++ keywords "name" q.names
  (if q.ips.isEmpty then [] else [.oneOf "ip" q.ips]) ++
  (if q.jobIds.isEmpty then [] else [.oneOf "job_id" q.jobIds]) ++
  (match q.firstDay with
    | some d => [.gte "begin_time" (.int d.start.millis)]
    | none => []) ++
  (match ended with
    | some t => [.lt "end_time" (.int t.millis)]
    | none => []) ++
  (match q.success with
    | some b => [.eq "success" (.bool b)]
    | none => []) ++
  (if words.isEmpty then [] else [.or words])

/-- The filter for a query; none if it ends on the last day of the calendar. -/
def filter? (q : Query) : Option Filter :=
  match q.lastDay with
  | none => some (allOf (q.clauses none))
  | some d => d.nextStart?.map fun t => allOf (q.clauses (some t))

end Query

end FleetLedger

import FleetLedger.Document.Filter
import FleetLedger.Model.Execution

/-!
# The latest execution of each job on each node

Beside the history there is one row for each combination of node, host name, address, job and job
group: a copy of the execution that was recorded last, which points at its source instead of having
an id of its own.
-/

namespace FleetLedger

/-- The row of the latest execution of a combination. -/
structure Latest where
  execution : Execution
  /-- The id of the execution that this row was copied from. -/
  source : String
  deriving DecidableEq

namespace Latest

/-- The row for an execution that was just recorded. -/
def ofExecution (e : Execution) : Latest := ⟨{ e with id := "" }, e.id⟩

/-- The execution that a row shows, with the id of its source. -/
def toExecution (l : Latest) : Execution := { l.execution with id := l.source }

/-- Holds of the row for the combination of an execution. -/
def rowFilter (e : Execution) : Filter :=
  .and [.eqString "node" e.node, .eqString "hostname" e.hostname, .eqString "ip" e.ip,
    .eqString "job_id" e.jobId, .eqString "job_group" e.jobGroup]

/-- The fields of a row. -/
def toDocument (l : Latest) : Document :=
  l.execution.toDocument.insert "ref_log_id" (.string l.source)

/-- The fields with which a recorded execution overwrites its row.  The row may hold a deletion time
from before, so one that is not set is written as null. -/
def overwriting (e : Execution) : Document :=
  (ofExecution e).toDocument.insertIfMissing "cleanup" .null

/-- Reads the fields of a row: the pointer first, then the execution. -/
def decoder : Decoding.Decoder Latest :=
  (Decoding.required "ref_log_id" Decoding.string).after fun source =>
    (fun e => ⟨e, source⟩) <$> Execution.decoder

end Latest

end FleetLedger

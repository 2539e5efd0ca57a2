import FleetLedger.Document.Stored

/-!
# Executions

An execution is one completed run of a job on a node, successful or not.  Nothing in it changes after
it was recorded, except that a time may be set from which on it is to be deleted whatever its age.

The list view of an execution leaves out what was run and what it printed, and decodes all the same.
-/

namespace FleetLedger

/-- One completed run of a job. -/
structure Execution where
  /-- Empty until the history assigns one. -/
  id : String
  jobId : String
  jobGroup : String
  /-- Who started the run. -/
  user : String
  /-- The name of the job. -/
  name : String
  /-- The id of the node that ran it. -/
  node : String
  hostname : String
  ip : String
  command : String
  output : String
  success : Bool
  beginTime : Timestamp
  endTime : Timestamp
  /-- From this instant on the execution may be deleted, whatever its age. -/
  cleanup : Option Timestamp
  deriving DecidableEq

namespace Execution

/-- The fields that list views leave out. -/
def bulky : List String := ["command", "output"]

/-- An instant as it is stored. -/
def stamp (t : Timestamp) : Json := .int t.millis

/-- The fields of an execution; an empty id and an unset deletion time are left out. -/
def fields (e : Execution) : List (String × Json) :=
  (if e.id.isEmpty then [] else [("id", .string e.id)]) ++
    [("job_id", .string e.jobId), ("job_group", .string e.jobGroup), ("user", .string e.user),
      ("name", .string e.name), ("node", .string e.node), ("hostname", .string e.hostname),
      ("ip", .string e.ip), ("command", .string e.command), ("output", .string e.output),
      ("success", .bool e.success), ("begin_time", stamp e.beginTime),
      ("end_time", stamp e.endTime)] ++
    (match e.cleanup with
      | some t => [("cleanup", stamp t)]
      | none => [])

/-- The document of an execution. -/
def toDocument (e : Execution) : Document := Table.ofList e.fields

/-- Reads the fields of an execution. -/
def decoder : Decoding.Decoder Execution :=
  Execution.mk
    <$> Decoding.withDefault "id" "" Decoding.string
    <*> Decoding.required "job_id" Decoding.string
    <*> Decoding.required "job_group" Decoding.string
    <*> Decoding.required "user" Decoding.string
    <*> Decoding.required "name" Decoding.string
    <*> Decoding.required "node" Decoding.string
    <*> Decoding.required "hostname" Decoding.string
    <*> Decoding.required "ip" Decoding.string
    <*> Decoding.withDefault "command" "" Decoding.string
    <*> Decoding.withDefault "output" "" Decoding.string
    <*> Decoding.required "success" Decoding.bool
    <*> Decoding.required "begin_time" Decoding.timestamp
    <*> Decoding.required "end_time" Decoding.timestamp
    <*> Decoding.optional "cleanup" Decoding.timestamp

end Execution

end FleetLedger

import FleetLedger.Json.Basic

/-!
# Notices

While it works, the ledger tells its operators what happened: each kind of event is a constructor
that carries what there is to say about it, and its level, its text and its named details are
functions of it.
-/

namespace FleetLedger

/-- How important a notice is. -/
inductive Level where
  | debug
  | info
  | warn
  | error
  deriving Repr, DecidableEq

/-- Something that happened. -/
inductive Notice where
  | invalidPattern (pattern : String)
  | indexesEnsured (collection : String)
  | indexesFailed (error collection : String)
  | insertFailed (error recordId jobId : String)
  | projectionFailed (error recordId jobId node : String)
  | dailyCountFailed (error date : String)
  | totalCountFailed (error : String)
  | upsertRaceLost (error collection : String)
  | stalePresence (key : String) (pid : Int)
  | corruptPresence (key value error : String)
  | nodeRemoved (id : String) (removed : Nat)
  | rosterFailed (error id : String) (alive : Bool)
  | watcherBehind (scope : String) (skipped : Nat)
  | nodeOnline (id pid : String)
  | nodeOffline (id : String)
  | membershipClosed (reason : String)
  | retentionStarted (periodSecs expirationSecs : Nat)
  | retentionPurged (deleted : Nat)
  | retentionIdle
  | retentionFailed (error : String)
  | retentionStopping
  deriving Repr, DecidableEq

namespace Notice

/-- The level of a notice. -/
def level : Notice → Level
  | invalidPattern _ | corruptPresence .. | watcherBehind .. | membershipClosed _ => .warn
  | indexesEnsured _ | upsertRaceLost .. | retentionIdle => .debug
  | indexesFailed .. | insertFailed .. | projectionFailed .. | dailyCountFailed ..
  | totalCountFailed _ | rosterFailed .. | retentionFailed _ => .error
  | stalePresence .. | nodeRemoved .. | nodeOnline .. | nodeOffline _ | retentionStarted ..
  | retentionPurged _ | retentionStopping => .info

/-- The text of a notice. -/
def text : Notice → String
  | invalidPattern _ => "Invalid match pattern"
  | indexesEnsured _ => "Indexes ensured"
  | indexesFailed .. => "Failed to create indexes"
  | insertFailed .. => "Failed to insert job execution record"
  | projectionFailed .. => "Failed to upsert latest execution projection"
  | dailyCountFailed .. => "Failed to increase stat.job-day"
  | totalCountFailed _ => "Failed to increase stat.job"
  | upsertRaceLost .. => "Upsert lost insert race, retrying"
  | stalePresence .. => "Removing stale presence key"
  | corruptPresence .. => "Removing corrupt presence key"
  | nodeRemoved .. => "Removed node identity"
  | rosterFailed .. => "Failed to mirror node identity"
  | watcherBehind .. => "Watcher fell behind, closing stream"
  | nodeOnline .. => "Node online"
  | nodeOffline _ => "Node offline"
  | membershipClosed _ => "Node membership watch closed"
  | retentionStarted .. => "Log retention job started"
  | retentionPurged _ => "Log retention: purged expired records"
  | retentionIdle => "Log retention: nothing to purge"
  | retentionFailed _ => "Log retention: sweep failed"
  | retentionStopping => "Log retention job stopping"

/-- The named details of a notice. -/
def details : Notice → List (String × Json)
  | invalidPattern pattern => [("pattern", .string pattern)]
  | indexesEnsured collection => [("collection", .string collection)]
  | indexesFailed error collection => [("error", .string error), ("collection", .string collection)]
  | insertFailed error recordId jobId =>
    [("error", .string error), ("record_id", .string recordId), ("job_id", .string jobId)]
  | projectionFailed error recordId jobId node =>
    [("error", .string error), ("record_id", .string recordId), ("job_id", .string jobId),
      ("node", .string node)]
  | dailyCountFailed error date => [("error", .string error), ("date", .string date)]
  | totalCountFailed error => [("error", .string error)]
  | upsertRaceLost error collection =>
    [("error", .string error), ("collection", .string collection)]
  | stalePresence key pid => [("key", .string key), ("pid", .int pid)]
  | corruptPresence key value error =>
    [("key", .string key), ("value", .string value), ("error", .string error)]
  | nodeRemoved id removed => [("node_id", .string id), ("removed", .int removed)]
  | rosterFailed error id alive =>
    [("error", .string error), ("node_id", .string id), ("alive", .bool alive)]
  | watcherBehind scope skipped => [("prefix", .string scope), ("skipped", .int skipped)]
  | nodeOnline id pid => [("node_id", .string id), ("pid", .string pid)]
  | nodeOffline id => [("node_id", .string id)]
  | membershipClosed reason => [("reason", .string reason)]
  | retentionStarted period expiration =>
    [("period_secs", .int period), ("expiration_secs", .int expiration)]
  | retentionPurged deleted => [("deleted", .int deleted)]
  | retentionIdle => []
  | retentionFailed error => [("error", .string error)]
  | retentionStopping => []

end Notice

end FleetLedger

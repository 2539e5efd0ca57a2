import FleetLedger.Registry
import FleetLedger.Rehearsal.Clock
import FleetLedger.Rehearsal.Keys

/-!
# The services of a rehearsal

The document store of a rehearsal is the one in memory, with outages; a removal takes its time, during
which the stopwatch moves on.  On it and on the key-value store stand the ledger and the registry.
After each step everything in the background settles.
-/

namespace FleetLedger.Rehearsal

/-- A call of the document store, with what is reported of it; it fails when it is out. -/
def storeCall {α : Type} (call : StoreCall) (collection : String) (notices : Memory → List Notice)
    (action : ExceptT Error (StateM Memory) α) : ExceptT Error Action α :=
  ExceptT.mk (modifyGet fun s =>
    if s.isOut call collection then (.error .refused, s)
    else
      let (result, documents) := action.run.run s.documents
      (result, ({ s with documents }).report (notices s.documents)))

/-- Lets everything act in the background that need not wait: sweepers whose time has come, then the
watches and the membership logs. -/
def settle (s : Rehearsal) : Rehearsal := (s.advance 0).settleStreams

/-- Waits while others act.  Sweepers whose time comes at the very end act only after the one who
waits here, which is when the step is over. -/
def wait (s : Rehearsal) (seconds : Nat) : Rehearsal :=
  if seconds = 0 then s
  else { s.settle.advance (seconds - 1) with clock := s.clock + seconds }

/-- Removes documents in the time that removals take. -/
def slowly (collection : String) (f : Filter) : ExceptT Error Action Nat :=
  ExceptT.mk (modifyGet fun s =>
    let s := { s with removals := s.removals + 1 }
    let (s, result) := (s.wait s.removalTime).remove collection f
    (result, s))

/-- The document store of a rehearsal. -/
def store : DocumentStore Action where
  find c f selection :=
    storeCall .find c (fun _ => f.notices) (Memory.store.find c f selection)
  findOne c f := storeCall .findOne c (fun _ => f.notices) (Memory.store.findOne c f)
  count c f := storeCall .count c (fun _ => f.notices) (Memory.store.count c f)
  insertMany c docs := storeCall .insertMany c (fun _ => []) (Memory.store.insertMany c docs)
  updateMany c f fields :=
    storeCall .updateMany c (·.changeNotices c f) (Memory.store.updateMany c f fields)
  upsert c f u := storeCall .upsert c (fun _ => f.notices) (Memory.store.upsert c f u)
  deleteMany c f := slowly c f
  createIndexes c fields :=
    storeCall .createIndexes c (fun _ => []) (Memory.store.createIndexes c fields)

/-- Reports something. -/
def note (n : Notice) : Action Unit := modify (·.report [n])

/-- Makes a new id. -/
def newId : Action String := do
  let now ← today
  modifyGet fun s =>
    let (id, ids) := s.ids.next now
    (id, { s with ids })

/-- The ledger of a rehearsal. -/
def ledger : Ledger Action where
  documents := store
  note := note
  now := Timestamp.reading <$> today
  newId := newId

/-- The registry of a rehearsal. -/
def registry (keys : KeySpace) : Registry Action Nat where
  keys := keys
  coordination := coordination
  documents := store
  note := note
  now := today
  isAlive := (fun s pid => s.live.contains pid) <$> get

end FleetLedger.Rehearsal

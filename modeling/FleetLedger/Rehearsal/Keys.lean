import FleetLedger.Coordination.Interface
import FleetLedger.Rehearsal.Basic

/-!
# The key-value store of a rehearsal

Every change of the entries is shown to all watches.  The forwarders of the watches, and after them the
membership logs, act when whoever makes changes lets them: `settleStreams` has them act until all of
them have to wait.
-/

namespace FleetLedger.Rehearsal

/-! ## Changes and watches -/

/-- Shows a change to all watches. -/
def publish (s : Rehearsal) (change : Event) : Rehearsal :=
  { s with watches := s.watches.map fun (n, w) => (n, w.push [change]) }

/-- Puts a value under a key. -/
def putKey (s : Rehearsal) (key value : String) : Rehearsal :=
  let (entries, change) := s.entries.put key value
  publish { s with entries } change

/-- Removes a key; how many there were. -/
def deleteKey (s : Rehearsal) (key : String) : Rehearsal × Nat :=
  match s.entries.delete key with
  | (entries, some change) => (publish { s with entries } change, 1)
  | (_, none) => (s, 0)

/-- Opens a watch; the number of its stream. -/
def openWatch (s : Rehearsal) (scope : String) : Rehearsal × Nat :=
  ({ s with watches := s.watches ++ [(s.streams, { scope })], streams := s.streams + 1 }, s.streams)

/-- Closes a watch from the watcher's side; nobody is told. -/
def closeWatch (s : Rehearsal) (stream : Nat) : Rehearsal :=
  { s with watches := s.watches.filter (·.1 != stream) }

/-- The watch with a stream. -/
def watch? (s : Rehearsal) (stream : Nat) : Option Watch :=
  (s.watches.find? (·.1 == stream)).map (·.2)

/-- Replaces the watch with a stream. -/
def setWatch (s : Rehearsal) (stream : Nat) (w : Watch) : Rehearsal :=
  { s with watches := s.watches.map fun (n, old) => (n, if n == stream then w else old) }

/-- Takes everything that can be delivered on a stream. -/
def takeAll (s : Rehearsal) (stream : Nat) : Rehearsal × List Event :=
  match s.watch? stream with
  | none => (s, [])
  | some w =>
    let (events, w, notices) := w.drain s.ring
    ((s.setWatch stream w).report notices, events)

/-- The store is gone: its calls fail, and the watches end with what they have. -/
def loseKeys (s : Rehearsal) : Rehearsal :=
  { s with keysGone := true, watches := s.watches.map fun (n, w) => (n, w.lose) }

/-! ## Acting in the background -/

/-- Lets the forwarder of one watch act. -/
def settleWatch (s : Rehearsal) (stream : Nat) : Rehearsal :=
  match s.watch? stream with
  | none => s
  | some w =>
    let (w, notices) := w.settle s.ring
    (s.setWatch stream w).report notices

/-- Lets a membership log act: it takes everything and reports it, and if that is the last it will
hear it ends. -/
def listen (s : Rehearsal) (l : Listener) : Rehearsal × Listener :=
  if l.finished then (s, l)
  else
    let (s, events) := s.takeAll l.stream
    let s := s.report (Membership.notices l.scope events)
    if Membership.isOver events then (s.closeWatch l.stream, { l with finished := true }) else (s, l)

/-- Lets a job act, if it is a membership log. -/
def listenTask (s : Rehearsal) : Task → Rehearsal × Task
  | .listener l =>
    let (s, l) := s.listen l
    (s, .listener l)
  | other => (s, other)

/-- Lets all membership logs act, in the order in which they were started. -/
def listenAll (s : Rehearsal) : List Task → Rehearsal × List Task
  | [] => (s, [])
  | t :: ts =>
    let (s, t) := s.listenTask t
    let (s, ts) := s.listenAll ts
    (s, t :: ts)

/-- Lets forwarders and membership logs act until all of them have to wait. -/
def settleStreams (s : Rehearsal) : Rehearsal :=
  let s := (s.watches.map (·.1)).foldl settleWatch s
  let (s, tasks) := s.listenAll s.tasks
  { s with tasks }

/-! ## The interface -/

/-- A call that fails when it is out. -/
def keyCall {α : Type} (call : KeyCall) (f : Rehearsal → Rehearsal × α) :
    ExceptT Error Action α :=
  ExceptT.mk (modifyGet fun s =>
    if s.keysOut call then (.error .refused, s)
    else
      let (s, a) := f s
      (.ok a, s))

/-- The key-value store of a rehearsal. -/
def coordination : Coordination Action Nat where
  get key := keyCall .get fun s => (s, s.entries.get? key)
  scan scope := keyCall .scan fun s => (s, s.entries.scan scope)
  put key value := keyCall .put fun s => (s.putKey key value, ())
  delete key := keyCall .delete fun s => s.deleteKey key
  watch scope := keyCall .watch fun s => s.openWatch scope

/-- Puts the values 0, 1, … under as many keys that start with the same text. -/
def burst (scope : String) (count : Nat) : ExceptT Error Action Unit :=
  (List.range count).forM fun i => coordination.put (scope ++ toString i) (toString i)

end FleetLedger.Rehearsal

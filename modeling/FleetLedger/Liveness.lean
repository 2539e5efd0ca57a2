/-!
# Is a process alive?

A process is asked by sending it the signal zero, which does nothing but check whether it could be
sent.  A refusal for lack of permission means that there is a process to refuse.  Numbers that are not
positive address groups of processes, and are never sent a signal.
-/

namespace FleetLedger.Liveness

/-- What the system answers when a signal is sent. -/
inductive Answer where
  | delivered
  | notPermitted
  | noSuchProcess
  | invalidSignal
  deriving Repr, DecidableEq

/-- A signal to a process. -/
structure Signal where
  pid : Int
  number : Int
  deriving Repr, DecidableEq

/-- The signal by which a process is asked whether it is there. -/
def probe? (pid : Int) : Option Signal := if 0 < pid then some ⟨pid, 0⟩ else none

/-- The process is alive, as far as the system's answer to the probe tells. -/
def isAlive (answer : Signal → Answer) (pid : Int) : Bool :=
  match (probe? pid).map answer with
  | some .delivered | some .notPermitted => true
  | _ => false

end FleetLedger.Liveness

/-!
# What can go wrong

Every operation of the ledger fails for one of six kinds of reasons.  The constructors say which,
and `message` is the one place where the wording lives.
-/

namespace FleetLedger

/-- A failed operation. -/
inductive Error where
  | notFound (entity id : String)
  /-- A stored value could not be decoded; `key` names where it is kept. -/
  | corrupt (key reason : String)
  /-- An external store did not answer. -/
  | storeUnavailable (reason : String)
  | conflict (reason : String)
  | validation (reason : String)
  | internal (reason : String)
  deriving Repr, DecidableEq

namespace Error

/-- The text of an error. -/
def message : Error → String
  | notFound entity id => "Entity not found: " ++ entity ++ " with id " ++ id
  | corrupt key reason => "Corrupt value at " ++ key ++ ": " ++ reason
  | storeUnavailable reason => "Store unavailable: " ++ reason
  | conflict reason => "Conflict: " ++ reason
  | validation reason => "Validation failed: " ++ reason
  | internal reason => "Internal error: " ++ reason

/-- Something was looked for and is not there. -/
def isNotFound : Error → Bool
  | notFound .. => true
  | _ => false

/-- The failure of a store that cannot be reached. -/
def refused : Error := storeUnavailable "connection refused"

end Error

/-- What an operation gives: its result, or why there is none. -/
abbrev Outcome (α : Type) := Except Error α

/-- An outcome that needs no store, among actions that do. -/
def settled {m : Type → Type} [Monad m] {α : Type} (r : Outcome α) : ExceptT Error m α :=
  ExceptT.mk (pure r)

end FleetLedger

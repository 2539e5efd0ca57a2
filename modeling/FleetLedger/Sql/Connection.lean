import FleetLedger.Error
import FleetLedger.Sql.Statement

/-!
# Connections to a database

A connection carries out statements.  Some return rows, others say how many rows they changed, and any
of them can fail.
-/

namespace FleetLedger.Sql

/-- A row of a result: its cells from left to right. -/
abbrev Row := List Json

/-- Why a statement gave no result. -/
inductive Failure where
  /-- The database refused it, with the code of the reason. -/
  | refused (code reason : String)
  /-- A row was asked for, and there is none. -/
  | noRow
  deriving Repr, DecidableEq

namespace Failure

/-- The text of a failure. -/
def message : Failure → String
  | refused _ reason => "error returned from database: " ++ reason
  | noRow => "no rows returned by a query that expected to return at least one row"

/-- Another row with the same unique key was there. -/
def isDuplicate : Failure → Bool
  | refused code _ => code == "23505"
  | noRow => false

/-- A failure, to those who know only that there is a store. -/
def error (f : Failure) : Error := .storeUnavailable f.message

end Failure

/-- A connection to a database. -/
structure Connection (m : Type → Type) where
  /-- Carries out a statement that returns rows. -/
  fetch : Statement → ExceptT Failure m (List Row)
  /-- Carries out a statement that changes rows; how many. -/
  execute : Statement → ExceptT Failure m Nat

namespace Connection

variable {m : Type → Type} [Monad m]

/-- Failures as errors of a store. -/
def asStore {α : Type} (action : ExceptT Failure m α) : ExceptT Error m α :=
  ExceptT.mk (Except.mapError Failure.error <$> action.run)

/-- The rows of a statement. -/
def rows (c : Connection m) (s : Statement) : ExceptT Error m (List Row) := asStore (c.fetch s)

/-- How many rows a statement changed. -/
def affected (c : Connection m) (s : Statement) : ExceptT Error m Nat := asStore (c.execute s)

/-- Checks that the database answers. -/
def check (c : Connection m) : ExceptT Failure m Unit := do
  let _ ← c.execute [.word "SELECT 1"]

end Connection

/-- A cell of a row; a missing one is null. -/
def cell (r : Row) (i : Nat) : Json := r[i]?.getD .null

/-- A cell that holds a text. -/
def textCell (r : Row) (i : Nat) : String := (cell r i).string?.getD ""

end FleetLedger.Sql

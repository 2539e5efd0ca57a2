import FleetLedger.Sql.Connection
import FleetLedger.Sql.Token

/-!
# What a database does about indexes

An index has a name, and within a database a name is the name of one index.  A statement that makes an
index unless it exists goes by the name alone: where there is an index of the name, nothing is made,
whatever that index is good for, and the statement succeeds all the same.

A database may keep less of a name than was said, such as its first 63 bytes.
-/

namespace FleetLedger.Sql

/-- An index of the documents by collection and field. -/
structure Index where
  name : String
  field : String
  deriving Repr, DecidableEq

namespace Index

/-- Reads tokens to an index that is to be made unless there is one of its name. -/
def ofTokens? : List Token → Option Index
  | [.word "CREATE", .word "INDEX", .word "IF", .word "NOT", .word "EXISTS", .word name, .word "ON",
      .word "documents", .mark '(', .word "collection", .mark ',', .mark '(', .word "doc",
      .sign "->", .literal field, .mark ')', .mark ')'] => some { name, field }
  | _ => none

/-- **The index that a database reads** in the text of a statement. -/
def ofStatement? (s : Statement) : Option Index := (Token.lex? s.text).bind ofTokens?

end Index

/-- The indexes of a database. -/
abbrev Indexes := List Index

namespace Indexes

/-- The field whose index has a name. -/
def field? (indexes : Indexes) (name : String) : Option String :=
  (indexes.find? (·.name == name)).map (·.field)

/-- Makes an index unless there is one of its name. -/
def make (indexes : Indexes) (i : Index) : Indexes :=
  if (indexes.field? i.name).isSome then indexes else indexes ++ [i]

/-- What is answered to any other statement. -/
def notRead : Failure := .refused "0A000" "feature not supported"

/-- A connection to a database that makes indexes, and keeps of a name what `keeps` says. -/
def connection (keeps : String → String) : Connection (StateM Indexes) where
  fetch _ := throw notRead
  execute s :=
    match Index.ofStatement? s with
    | none => throw notRead
    | some i => do
      modify (·.make { i with name := keeps i.name })
      return 0

end Indexes

end FleetLedger.Sql

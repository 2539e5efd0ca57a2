import FleetLedger.Sql.Token

/-!
# How a database reads an expression

An expression is read from the left to a tree.  An operator takes the operand before it together with
whatever binds closer than itself, then waits for its other operand; parentheses are read on their own
and count as one operand.  So the powers of the operators alone decide how the tree grows, and where
parentheses are missing the tree is not the one that was meant.

Values take the places of their placeholders before the reading.  Only the operators are known that
conditions on documents, the new values of documents and searches use.
-/

namespace FleetLedger.Sql

/-- Operators. -/
inductive Operator where
  | comma
  | or
  | and
  | not
  | is
  | equal
  | less
  | atMost
  | atLeast
  | isIn
  /-- The field of an object. -/
  | field
  /-- The field of an object, as a text. -/
  | fieldText
  /-- A text has a match, whatever the case of its letters. -/
  | like
  /-- One object laid over another. -/
  | concat
  | plus
  /-- An object without some of its fields. -/
  | minus
  | cast
  /-- A column of a row. -/
  | member
  deriving Repr, DecidableEq

namespace Operator

/-- How close an operator binds. -/
def power : Operator → Nat
  | comma => 1
  | or => 2
  | and => 3
  | not => 4
  | is => 5
  | equal | less | atMost | atLeast => 6
  | isIn => 7
  | field | fieldText | like | concat => 8
  | plus | minus => 9
  | cast => 10
  | member => 11

/-- The operator that a token stands for between two operands. -/
def ofToken? : Token → Option Operator
  | .mark ',' => some comma
  | .word "OR" => some or
  | .word "AND" => some and
  | .word "IS" => some is
  | .word "IN" => some isIn
  | .sign "=" => some equal
  | .sign "<" => some less
  | .sign "<=" => some atMost
  | .sign ">=" => some atLeast
  | .sign "->" => some field
  | .sign "->>" => some fieldText
  | .sign "~*" => some like
  | .sign "||" => some concat
  | .sign "+" => some plus
  | .sign "-" => some minus
  | .sign "::" => some cast
  | .mark '.' => some member
  | _ => none

end Operator

/-- An expression. -/
inductive Expr where
  | name (text : String)
  | literal (value : String)
  /-- A value in the place of its placeholder. -/
  | value (bind : Bind)
  /-- An expression in parentheses. -/
  | group (e : Expr)
  | call (function : String) (argument : Expr)
  | not (e : Expr)
  | infixed (op : Operator) (left right : Expr)

/-- A token, or a value in the place of its placeholder. -/
inductive Symbol where
  | token (t : Token)
  | value (bind : Bind)

/-- Puts a value in the place of its placeholder. -/
def Symbol.ofToken? (binds : List Bind) : Token → Option Symbol
  | .parameter 0 => none
  | .parameter (n + 1) => binds[n]?.map value
  | t => some (token t)

/-- What a database sees of a statement: the tokens of its text, with the values that are handed over
beside it in the places of their placeholders. -/
def Symbol.ofStatement? (s : Statement) : Option (List Symbol) := do
  let tokens ← Token.lex? s.text
  tokens.mapM (ofToken? s.binds)

namespace Expr

/-- An operator that waits for its last operand. -/
inductive Half where
  | not
  | infixed (left : Expr) (op : Operator)

/-- How close the operator binds. -/
def Half.power : Half → Nat
  | not => Operator.not.power
  | infixed _ op => op.power

/-- Gives the operator its last operand. -/
def Half.complete : Half → Expr → Expr
  | not, e => .not e
  | infixed left op, e => .infixed op left e

/-- Completes what binds at least as close as a power. -/
def reduce (power : Nat) : List Half → Expr → List Half × Expr
  | [], e => ([], e)
  | h :: hs, e => if power ≤ h.power then reduce power hs (h.complete e) else (h :: hs, e)

/-- What was begun within one pair of parentheses. -/
structure Level where
  /-- The function, if the parentheses hold the argument of one. -/
  caller : Option String
  /-- What waits for an operand, the innermost first. -/
  pending : List Half

/-- What stands before a symbol, as far as it bears on the reading. -/
structure Reader where
  level : Level
  /-- The operand that was read last, unless one is to follow. -/
  operand : Option Expr
  /-- What was begun around the parentheses that are open. -/
  outer : List Level

namespace Reader

/-- Nothing was read yet. -/
def start : Reader := ⟨⟨none, []⟩, none, []⟩

/-- Opens parentheses. -/
def enter (r : Reader) (caller : Option String) : Reader :=
  ⟨⟨caller, []⟩, none, r.level :: r.outer⟩

/-- What stands in parentheses, and they themselves. -/
def enclosed : Option String → Expr → Expr
  | none, e => .group e
  | some function, e => .call function e

/-- Reads a symbol where an operand is to follow. -/
def opening (r : Reader) : Symbol → Option Reader
  | .value bind => some { r with operand := some (.value bind) }
  | .token (.literal text) => some { r with operand := some (.literal text) }
  | .token (.mark '(') => some (r.enter none)
  | .token (.word "NOT") => some { r with level.pending := .not :: r.level.pending }
  | .token (.word text) =>
    if (Operator.ofToken? (.word text)).isSome then none
    else some { r with operand := some (.name text) }
  | _ => none

/-- Reads a symbol behind an operand. -/
def following (r : Reader) (e : Expr) : Symbol → Option Reader
  | .token (.mark '(') =>
    match e with
    | .name function => some (r.enter (some function))
    | _ => none
  | .token (.mark ')') =>
    match r.outer with
    | [] => none
    | level :: outer =>
      some ⟨level, some (enclosed r.level.caller (reduce 0 r.level.pending e).2), outer⟩
  | .token t =>
    (Operator.ofToken? t).map fun op =>
      let (pending, left) := reduce op.power r.level.pending e
      ⟨⟨r.level.caller, .infixed left op :: pending⟩, none, r.outer⟩
  | .value _ => none

/-- Reads a symbol. -/
def step (r : Reader) (s : Symbol) : Option Reader :=
  match r.operand with
  | none => r.opening s
  | some e => r.following e s

/-- The expression that was read, if all parentheses are closed. -/
def result? (r : Reader) : Option Expr :=
  match r.operand, r.outer with
  | some e, [] => some (reduce 0 r.level.pending e).2
  | _, _ => none

end Reader

/-- Reads symbols to an expression. -/
def read? (symbols : List Symbol) : Option Expr :=
  (symbols.foldlM Reader.step Reader.start).bind Reader.result?

/-- **The expression that a database reads** in the text of a statement, with the values that are
handed over beside it in their places. -/
def ofStatement? (s : Statement) : Option Expr := (Symbol.ofStatement? s).bind read?

example : ofStatement? [.word "a OR b AND NOT c = ", .value (.text "d")]
    = some (.infixed .or (.name "a") (.infixed .and (.name "b")
      (.not (.infixed .equal (.name "c") (.value (.text "d")))))) := rfl

end Expr

end FleetLedger.Sql

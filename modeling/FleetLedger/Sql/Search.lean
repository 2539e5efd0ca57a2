import FleetLedger.Document.Order
import FleetLedger.Sql.Evaluation

/-!
# What a search answers

A search is made of clauses, and each of them begins with a word of its own: what is shown of a row, the
table, the condition, the terms by which rows are ordered, how many rows are passed over, and how many are
shown.  The database cuts the search at these words and reads what stands between them.

Rows are ordered by the values of the terms, and a term says itself where rows go in which it has no value.
Rows that no term tells apart may come in either order, so an answer is not computed from a search but
related to it (`Shows`, `Answers`).

As with expressions, only what is wanted here is read, and where a value or an order would have to be known
that is not given there is no answer.
-/

namespace FleetLedger.Sql

/-- A row of the table of documents with its id. -/
structure StoredRow extends DocumentRow where
  id : Nat

/-- Where rows without a value go. -/
inductive Nulls where
  | first
  | last
  deriving Repr, DecidableEq

/-- A term by which rows are ordered. -/
structure OrderTerm where
  term : Expr
  direction : Direction
  nulls : Nulls

/-- A search of the table of documents. -/
structure Search where
  /-- What is shown of a row. -/
  shown : Expr
  condition : Expr
  order : List OrderTerm
  skip : Nat
  limit : Option Nat

/-! ## Reading -/

/-- The direction of a term and the place of rows without a value, from the words behind the term. -/
def OrderTerm.suffix? : List String → Option (Direction × Nulls)
  | [] | ["ASC"] | ["ASC", "NULLS", "LAST"] => some (.ascending, .last)
  | ["ASC", "NULLS", "FIRST"] => some (.ascending, .first)
  | ["DESC"] | ["DESC", "NULLS", "FIRST"] => some (.descending, .first)
  | ["DESC", "NULLS", "LAST"] => some (.descending, .last)
  | _ => none

/-- The text of a word. -/
def Symbol.word? : Symbol → Option String
  | .token (.word text) => some text
  | _ => none

/-- A word that stands behind a term. -/
def Symbol.isOrderWord (s : Symbol) : Bool :=
  s.word?.any fun text => ["ASC", "DESC", "NULLS"].contains text

/-- Reads a term. -/
def OrderTerm.ofSymbols? (symbols : List Symbol) : Option OrderTerm := do
  let term ← Expr.read? (symbols.takeWhile fun s => !s.isOrderWord)
  let words ← (symbols.dropWhile fun s => !s.isOrderWord).mapM Symbol.word?
  let (direction, nulls) ← suffix? words
  return { term, direction, nulls }

namespace Search

/-- The word, if a clause begins with it. -/
def clauseWord? (s : Symbol) : Option String :=
  s.word?.filter fun text =>
    ["SELECT", "FROM", "WHERE", "ORDER", "OFFSET", "LIMIT"].contains text

/-- Cuts symbols where clauses begin: what stands before the first of them, and the clauses. -/
def clauses : List Symbol → List Symbol × List (String × List Symbol)
  | [] => ([], [])
  | s :: rest =>
    let (part, later) := clauses rest
    match clauseWord? s with
    | some word => ([], (word, part) :: later)
    | none => (s :: part, later)

/-- Cuts symbols at the commas outside of parentheses; how many of these are open, and what was read of
the first part. -/
def items : Nat → List Symbol → List Symbol → List (List Symbol)
  | _, item, [] => [item]
  | 0, item, .token (.mark ',') :: rest => item :: items 0 [] rest
  | depth, item, s :: rest =>
    let inside :=
      match s with
      | .token (.mark '(') => depth + 1
      | .token (.mark ')') => depth - 1
      | _ => depth
    items inside (item ++ [s]) rest

/-- The name of a type of lists is one name. -/
def typed : List Symbol → List Symbol
  | .token (.word text) :: .token (.mark '[') :: .token (.mark ']') :: rest =>
    .token (.word (text ++ "[]")) :: typed rest
  | s :: rest => s :: typed rest
  | [] => []

/-- A number of rows. -/
def count? : List Symbol → Option Nat
  | [.value (.int8 n)] => if 0 ≤ n then some n.toNat else none
  | _ => none

/-- How many rows are passed over, and how many are shown. -/
def paging? : List (String × List Symbol) → Option (Nat × Option Nat)
  | [] => some (0, none)
  | [("OFFSET", m)] => (count? m).map fun m => (m, none)
  | [("LIMIT", n)] => (count? n).map fun n => (0, some n)
  | [("OFFSET", m), ("LIMIT", n)] => do
    let m ← count? m
    let n ← count? n
    return (m, some n)
  | _ => none

/-- Reads symbols to a search. -/
def ofSymbols? (symbols : List Symbol) : Option Search :=
  match clauses symbols with
  | ([], ("SELECT", shown) :: ("FROM", [.token (.word "documents")]) :: ("WHERE", condition)
      :: ("ORDER", .token (.word "BY") :: order) :: paging) => do
    let shown ← Expr.read? (typed shown)
    let condition ← Expr.read? condition
    let order ← (items 0 [] order).mapM OrderTerm.ofSymbols?
    let (skip, limit) ← paging? paging
    return { shown, condition, order, skip, limit }
  | _ => none

/-- **The search that a database reads** in the text of a statement. -/
def ofStatement? (s : Statement) : Option Search := (Symbol.ofStatement? s).bind ofSymbols?

example : ((ofStatement? [.word "SELECT doc FROM documents WHERE TRUE ORDER BY a DESC, id LIMIT ",
      .value (.int8 3)]).map fun s => (s.order.map fun t => (t.direction, t.nulls), s.limit))
    = some ([(.descending, .first), (.ascending, .last)], some 3) := rfl

end Search

/-! ## The order of rows -/

/-- The order of integers, also as JSON. -/
def Datum.compare? : Datum → Datum → Option Ordering
  | .int8 m, .int8 n => some (compare m n)
  | .jsonb (.int m), .jsonb (.int n) => some (compare m n)
  | _, _ => none

namespace OrderTerm

/-- The value of a term in a row. -/
def value? (t : OrderTerm) (row : StoredRow) : Option Datum :=
  match t.term with
  | .name "id" => some (.int8 row.id)
  | e => e.eval row.toDocumentRow

/-- The order of two values of a term.  The direction does not turn around the place of `NULL`. -/
def compare? (t : OrderTerm) : Datum → Datum → Option Ordering
  | .null, .null => some .eq
  | .null, _ => some (match t.nulls with | .first => .lt | .last => .gt)
  | _, .null => some (match t.nulls with | .first => .gt | .last => .lt)
  | a, b =>
    (Datum.compare? a b).map fun o =>
      match t.direction with
      | .ascending => o
      | .descending => o.swap

end OrderTerm

/-- The order of two rows by some terms: the first term that tells them apart decides. -/
def orderBy? : List OrderTerm → StoredRow → StoredRow → Option Ordering
  | [], _, _ => some .eq
  | t :: terms, a, b => do
    let o ← t.compare? (← t.value? a) (← t.value? b)
    let rest ← orderBy? terms a b
    return o.then rest

/-! ## Answers -/

/-- What is left of some items when the first ones are passed over and no more are taken than allowed. -/
def segment {α : Type} (skip : Nat) (limit : Option Nat) (items : List α) : List α :=
  match limit with
  | some n => (items.drop skip).take n
  | none => items.drop skip

namespace Search

/-- **What may be shown of the rows that were selected**: they are brought into an order that the terms
allow, and of the rows of a part the values are shown. -/
def Shows (s : Search) (selected : List StoredRow) (answer : List Datum) : Prop :=
  ∃ ordered : List StoredRow, ordered.Perm selected
    ∧ (ordered.Pairwise fun a b => ∃ o, orderBy? s.order a b = some o ∧ o ≠ .gt)
    ∧ (segment s.skip s.limit ordered).map (fun row => s.shown.eval row.toDocumentRow)
      = answer.map some

/-- The condition is true of a row. -/
def selects (s : Search) (row : StoredRow) : Bool :=
  match s.condition.eval row.toDocumentRow with
  | some (.bool truth) => truth
  | _ => false

/-- **What a search may answer**: only rows are selected that the condition is true of. -/
def Answers (s : Search) (table : List StoredRow) (answer : List Datum) : Prop :=
  (∀ row ∈ table, (s.condition.eval row.toDocumentRow).isSome = true)
    ∧ s.Shows (table.filter s.selects) answer

end Search

end FleetLedger.Sql

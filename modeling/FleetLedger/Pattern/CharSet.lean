import FleetLedger.Text.CaseFold
import FleetLedger.Text.DecimalDigit

/-!
# Sets of characters in patterns

A pattern names the characters it takes at one place by a set.  Sets are built from stretches of
characters and the digits by union, by the operations between two sets, and by complement.

Letter case never counts.  A stretch holds every character with a case variant in it, so it holds all
variants of a character or none, and all that is built from such sets does the same: whether case is
made not to count before or after an operation makes no difference.
-/

namespace FleetLedger

/-- An operation between two sets. -/
inductive SetOp where
  /-- What both hold. -/
  | common
  /-- What the left one holds and the right one does not. -/
  | without
  /-- What exactly one of them holds. -/
  | either
  deriving Repr, DecidableEq

/-- A set of characters. -/
inductive CharSet where
  /-- The characters with a variant on one of the stretches, or all others. -/
  | listed (stretches : List (Char × Char)) (negated : Bool)
  /-- The decimal digits of all scripts. -/
  | digit
  /-- A set in brackets, or its complement. -/
  | bracket (body : CharSet) (negated : Bool)
  | union (first second : CharSet)
  | combine (op : SetOp) (left right : CharSet)
  deriving Repr, DecidableEq

/-- An operation at one character. -/
def SetOp.holds : SetOp → Bool → Bool → Bool
  | common, left, right => left && right
  | without, left, right => left && !right
  | either, left, right => left != right

namespace CharSet

/-- The empty set. -/
def empty : CharSet := listed [] false

/-- One character and its case variants. -/
def char (c : Char) : CharSet := listed [(c, c)] false

/-- The union of all sets of a list. -/
def unions : List CharSet → CharSet
  | [] => empty
  | [s] => s
  | s :: more => union s (unions more)

/-- A character belongs to a set. -/
def holds : CharSet → Char → Bool
  | listed stretches negated, c =>
    ((CaseFold.variants c).any fun v => stretches.any fun (low, high) => low ≤ v && v ≤ high)
      != negated
  | digit, c => DecimalDigit.isDigit c
  | bracket body negated, c => body.holds c != negated
  | union first second, c => first.holds c || second.holds c
  | combine op left right, c => op.holds (left.holds c) (right.holds c)

/-- A set written as several sets in a row. -/
def isUnion : CharSet → Bool
  | union _ _ => true
  | _ => false

/-- How deep a set is nested: brackets, operations and rows of sets count, and a row counts once. -/
def nesting : CharSet → Nat
  | listed _ _ => 0
  | digit => 0
  | bracket body _ => body.nesting + 1
  | union first second =>
    max (first.nesting + 1) (if second.isUnion then second.nesting else second.nesting + 1)
  | combine _ left right => max left.nesting right.nesting + 1

/-! ## Named sets -/

/-- The stretches of the ASCII characters that go by a name. -/
def named? : String → Option (List (Char × Char))
  | "alnum" => some [('0', '9'), ('A', 'Z'), ('a', 'z')]
  | "alpha" => some [('A', 'Z'), ('a', 'z')]
  | "ascii" => some [('\x00', '\x7f')]
  | "blank" => some [('\t', '\t'), (' ', ' ')]
  | "cntrl" => some [('\x00', '\x1f'), ('\x7f', '\x7f')]
  | "digit" => some [('0', '9')]
  | "graph" => some [('!', '~')]
  | "lower" => some [('a', 'z')]
  | "print" => some [(' ', '~')]
  | "punct" => some [('!', '/'), (':', '@'), ('[', '\x60'), ('\x7b', '~')]
  | "space" => some [('\t', '\r'), (' ', ' ')]
  | "upper" => some [('A', 'Z')]
  | "word" => some [('0', '9'), ('A', 'Z'), ('_', '_'), ('a', 'z')]
  | "xdigit" => some [('0', '9'), ('A', 'F'), ('a', 'f')]
  | _ => none

end CharSet

end FleetLedger

import FleetLedger.Pattern.CharSet
import FleetLedger.Text.WordCharacter

/-!
# Search patterns

A pattern describes texts, and a text *matches* when one of its substrings is described.  Letter case
never counts.

A text of `n` characters has `n + 1` places, between its characters and at its ends, and a set of
places is a list of as many flags.  The meaning of a pattern is given by `reach`: a described stretch
that starts at one of the given places ends at one of these.  Patterns in a row are functions one
after the other, alternatives are a union, and after as many rounds as there are places a repetition
has reached all it ever will.

A pattern also has a size and a nesting.  Neither bears on what matches; the notation uses them to
refuse patterns out of all proportion.
-/

namespace FleetLedger

/-- What a pattern can ask of a place without taking a character. -/
inductive Edge where
  /-- The start of the text. -/
  | start
  /-- The end of the text. -/
  | finish
  /-- The start of a word. -/
  | wordStart
  /-- The end of a word. -/
  | wordEnd
  deriving Repr, DecidableEq

/-- A place has the edge that a pattern asks for, by the characters before and after it. -/
def Edge.holds : Edge → Option Char → Option Char → Bool
  | .start, before, _ => before.isNone
  | .finish, _, after => after.isNone
  | .wordStart, before, after =>
    !before.any WordCharacter.isWord && after.any WordCharacter.isWord
  | .wordEnd, before, after =>
    before.any WordCharacter.isWord && !after.any WordCharacter.isWord

/-- A search pattern. -/
inductive Pattern where
  | empty
  | anyOf (set : CharSet)
  | edge (kind : Edge)
  | group (body : Pattern)
  | seq (first second : Pattern)
  | alt (left right : Pattern)
  /-- At least so many times in a row, and at most so many if there is a bound. -/
  | rep (body : Pattern) (least : Nat) (most : Option Nat)
  deriving Repr, DecidableEq

namespace Pattern

/-- The pattern of one character. -/
def char (c : Char) : Pattern := anyOf (.char c)

/-- Any character but the line break. -/
def notBreak : Pattern := anyOf (.listed [('\n', '\n')] true)

/-- Patterns one after the other. -/
def sequence : List Pattern → Pattern
  | [] => empty
  | [p] => p
  | p :: more => seq p (sequence more)

/-- The pattern of a text that stands for itself. -/
def literal (cs : List Char) : Pattern := sequence (cs.map char)

/-! ## Matching -/

/-- The characters before and after each place of a text. -/
def sides (text : List Char) : List (Option Char × Option Char) :=
  (none :: text.map some).zip (text.map some ++ [none])

/-- The places that exactly so many rounds lead to; a round that changes nothing is the last. -/
def rounds (step : List Bool → List Bool) : Nat → List Bool → List Bool
  | 0, places => places
  | n + 1, places =>
    let next := step places
    if next == places then places else rounds step n next

/-- The places that at most so many rounds lead to. -/
def closure (step : List Bool → List Bool) : Nat → List Bool → List Bool :=
  rounds fun places => places.zipWith (· || ·) (step places)

/-- A pattern that two stretches in a row match only where one stretch does: a repetition without an
upper bound. -/
def isLoop : Pattern → Bool
  | group p => p.isLoop
  | rep _ least none => least ≤ 1
  | rep p least (some most) => least ≤ 1 && 1 ≤ most && p.isLoop
  | _ => false

/-- The places where stretches that start at the given places may end. -/
def reach (text : List Char) : Pattern → List Bool → List Bool
  | empty, places => places
  | anyOf set, places => false :: text.zipWith (fun c here => here && set.holds c) places
  | edge kind, places =>
    (sides text).zipWith (fun (before, after) here => here && kind.holds before after) places
  | group p, places => reach text p places
  | seq p q, places => reach text q (reach text p places)
  | alt p q, places => (reach text p places).zipWith (· || ·) (reach text q places)
  | rep p least most, places =>
    let all := text.length + 1
    -- a loop in a row with itself leads no further
    let enough := if p.isLoop then (if least = 0 then 1 else 0) else all
    let extra := match most with
      | some most => min (most - least) enough
      | none => enough
    closure (reach text p) extra (rounds (reach text p) (min least all) places)

/-- All places of a text. -/
def everywhere (text : List Char) : List Bool := List.replicate (text.length + 1) true

/-- Some substring of the text is described. -/
def isMatch (p : Pattern) (text : String) : Bool :=
  (p.reach text.toList (everywhere text.toList)).any id

/-! ## Size and nesting -/

/-- The number of characters in a pattern, with every repetition written out. -/
def size : Pattern → Nat
  | empty => 0
  | anyOf _ => 1
  | edge _ => 0
  | group p => p.size
  | seq p q => p.size + q.size
  | alt p q => p.size + q.size
  | rep p least most => max 1 (most.getD least) * p.size

/-- A pattern written as several in a row. -/
def isSeq : Pattern → Bool
  | seq _ _ => true
  | _ => false

/-- A pattern written as several alternatives. -/
def isAlt : Pattern → Bool
  | alt _ _ => true
  | _ => false

/-- How deep a pattern is nested: groups, repetitions, classes, rows and alternatives count, and a
row of patterns or of alternatives counts once. -/
def nesting : Pattern → Nat
  | empty => 0
  | anyOf set => set.nesting
  | edge _ => 0
  | group p => p.nesting + 1
  | seq p q => max (p.nesting + 1) (if q.isSeq then q.nesting else q.nesting + 1)
  | alt p q => max (p.nesting + 1) (if q.isAlt then q.nesting else q.nesting + 1)
  | rep p _ _ => p.nesting + 1

end Pattern

end FleetLedger

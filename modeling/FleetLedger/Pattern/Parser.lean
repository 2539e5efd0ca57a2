import FleetLedger.Pattern.Basic
import FleetLedger.Text.Blank

/-!
# The notation of patterns

A pattern is written as alternatives between bars, each a sequence of items; an alternative may be
empty.  An item is a character that stands for itself, a point, an anchor, a class in brackets, a
group in parentheses or an escape, and may be repeated.

A class lists characters, ranges of them, escapes, named classes and further classes.  Operations
between such lists are all of one rank, and a class with several of them is read from the left.

A text is no pattern when a group or a class is not closed, a group is closed that was not opened, a
range runs backwards, there is nothing in front of a repetition, a repetition has no proper bounds,
an escape is incomplete or unknown, or it is nested too deep or repeated too often.

This is the part of the notation that is needed to search for keywords, and some more of it.  Escapes
other than those of `escaped?` are not read, nor are groups that begin with a question mark.

`escape` goes the other way: it turns a text into the pattern of that text.
-/

namespace FleetLedger.Pattern

/-- The characters that mean something in the notation. -/
def metaCharacters : List Char :=
  ['\\', '.', '+', '*', '?', '(', ')', '|', '[', ']', '\x7b', '\x7d', '^', '$', '#', '&', '-', '~']

/-- The pattern that describes a text and nothing else, but for case. -/
def escapeChars (cs : List Char) : List Char :=
  cs.flatMap fun c => if metaCharacters.contains c then ['\\', c] else [c]

/-- The pattern of a text, as a text. -/
def escape (s : String) : String := String.ofList (escapeChars s.toList)

namespace Parser

/-- What an escape means. -/
inductive Escape where
  | char (c : Char)
  | digit
  | edge (kind : Edge)
  deriving Repr, DecidableEq

/-- The escape of the character after a backslash: a line break, a digit, an edge of a word, or the
character itself.  These are a part of the escapes that the notation has: it also has letters for
white space, word characters, tabs and other edges, and ways to write a character by its number or to
name a property.  They are not read here, and a text with one of them counts as no pattern. -/
def escaped? (c : Char) : Option Escape :=
  if c == 'n' then some (.char '\n')
  else if c == 'd' then some .digit
  else if c == '<' then some (.edge .wordStart)
  else if c == '>' then some (.edge .wordEnd)
  else if c.toNat < 128 && !c.isAlphanum then some (.char c)
  else none

/-! ## Classes -/

/-- One character of a class, or an escape. -/
def classItem : List Char → Option (Escape × List Char)
  | '\\' :: c :: rest => (escaped? c).map (·, rest)
  | '\\' :: [] => none
  | c :: rest => some (.char c, rest)
  | [] => none

/-- The set of an escape; an edge of a word is none. -/
def Escape.set? : Escape → Option CharSet
  | char c => some (.char c)
  | digit => some .digit
  | edge _ => none

/-- A range between two characters, in ascending order. -/
def Escape.range? : Escape → Escape → Option CharSet
  | char low, char high => if low ≤ high then some (.listed [(low, high)] false) else none
  | _, _ => none

/-- A range of a class, or a single item.  A hyphen makes no range when a further hyphen or the end
of the class follows it. -/
def classRange (cs : List Char) : Option (CharSet × List Char) := do
  let (item, rest) ← classItem cs
  let alone := item.set?.map (·, rest)
  match rest with
  | '-' :: ']' :: _ => alone
  | '-' :: '-' :: _ => alone
  | '-' :: next =>
    let (last, rest) ← classItem next
    (item.range? last).map (·, rest)
  | _ => alone

/-- A class that goes by a name, between the colons that follow a bracket; a caret before the name
stands for all characters but these. -/
def namedClass? (cs : List Char) : Option (CharSet × List Char) :=
  let negated := cs.head? == some '^'
  let cs := if negated then cs.drop 1 else cs
  match cs.dropWhile (· != ':') with
  | ':' :: ']' :: rest =>
    (CharSet.named? (String.ofList (cs.takeWhile (· != ':')))).map fun stretches =>
      (.listed stretches negated, rest)
  | _ => none

/-- A named class after its opening bracket, if there is one. -/
def named? : List Char → Option (CharSet × List Char)
  | ':' :: rest => namedClass? rest
  | _ => none

/-- The mark of an operation between classes. -/
def setOp? : List Char → Option (SetOp × List Char)
  | '&' :: '&' :: rest => some (.common, rest)
  | '-' :: '-' :: rest => some (.without, rest)
  | '~' :: '~' :: rest => some (.either, rest)
  | _ => none

/-- Ends an operand: the sets listed so far are the right operand of the operation before them. -/
def operand (left : Option (CharSet × SetOp)) (sets : List CharSet) : CharSet :=
  match left with
  | some (left, op) => .combine op left (.unions sets)
  | none => .unions sets

/-- The hyphens at the start of a class, which stand for themselves, or a closing bracket in their
place, which does, too. -/
def classLead : List Char → List CharSet × List Char
  | ']' :: rest => ([.char ']'], rest)
  | cs => ((cs.takeWhile (· == '-')).map .char, cs.dropWhile (· == '-'))

mutual

/-- A class after its opening bracket. -/
def bracketed : Nat → List Char → Option (CharSet × List Char)
  | 0, _ => none
  | fuel + 1, cs => do
    let negated := cs.head? == some '^'
    let (lead, rest) := classLead (if negated then cs.drop 1 else cs)
    let (body, rest) ← classBody fuel none lead rest
    return (.bracket body negated, rest)

/-- The rest of a class up to its closing bracket, behind an operation and the sets listed since. -/
def classBody : Nat → Option (CharSet × SetOp) → List CharSet → List Char →
    Option (CharSet × List Char)
  | 0, _, _, _ => none
  | _ + 1, _, _, [] => none
  | _ + 1, left, sets, ']' :: rest => some (operand left sets, rest)
  | fuel + 1, left, sets, '[' :: rest => do
    let (set, rest) ← match named? rest with
      | some found => some found
      | none => bracketed fuel rest
    classBody fuel left (sets ++ [set]) rest
  | fuel + 1, left, sets, cs =>
    match setOp? cs with
    | some (op, rest) => classBody fuel (some (operand left sets, op)) [] rest
    | none => do
      let (set, rest) ← classRange cs
      classBody fuel left (sets ++ [set]) rest

end

/-! ## Repetitions -/

/-- The largest bound of a repetition. -/
def maxBound : Nat := Nat.pow 2 32 - 1

/-- The largest size of a repeated pattern, with all repetitions written out. -/
def maxSize : Nat := Nat.pow 2 17

/-- A bound of a repetition, with blanks around it. -/
def bound? (cs : List Char) : Option (Nat × List Char) :=
  let cs := cs.dropWhile Blank.isBlank
  let n := (cs.takeWhile Char.isDigit).foldl (fun n c => n * 10 + (c.toNat - '0'.toNat)) 0
  let rest := cs.dropWhile Char.isDigit
  if rest.length = cs.length ∨ maxBound < n then none
  else some (n, rest.dropWhile Blank.isBlank)

/-- The bounds of a repetition after its opening brace: one number, a number and more, or two numbers
in order. -/
def bounds? (cs : List Char) : Option ((Nat × Option Nat) × List Char) := do
  let (least, rest) ← bound? cs
  match rest with
  | '\x7d' :: rest => some ((least, some least), rest)
  | ',' :: '\x7d' :: rest => some ((least, none), rest)
  | ',' :: rest =>
    match ← bound? rest with
    | (most, '\x7d' :: rest) => if least ≤ most then some ((least, some most), rest) else none
    | _ => none
  | _ => none

/-- The repetition a text starts with, if any; the inner option is none when it has no proper
bounds. -/
def repetition? : List Char → Option (Option ((Nat × Option Nat) × List Char))
  | '*' :: rest => some (some ((0, none), rest))
  | '+' :: rest => some (some ((1, none), rest))
  | '?' :: rest => some (some ((0, some 1), rest))
  | '\x7b' :: rest => some (bounds? rest)
  | _ => none

/-- A mark after a repetition that asks for the shortest stretch; whether there is a match does not
depend on it. -/
def skipShortest : List Char → List Char
  | '?' :: rest => rest
  | cs => cs

/-- Applies the repetitions that follow an item. -/
def repetitions : Nat → Pattern → List Char → Option (Pattern × List Char)
  | 0, p, cs => some (p, cs)
  | fuel + 1, p, cs =>
    match repetition? cs with
    | none => some (p, cs)
    | some none => none
    | some (some ((least, most), rest)) =>
      let repeated := Pattern.rep p least most
      if repeated.size ≤ maxSize then repetitions fuel repeated (skipShortest rest) else none

/-! ## Patterns -/

/-- The pattern of an escape. -/
def Escape.pattern : Escape → Pattern
  | char c => .char c
  | digit => .anyOf .digit
  | edge kind => .edge kind

mutual

/-- Alternatives, up to the end or a closing parenthesis. -/
def alternatives : Nat → List Char → Option (Pattern × List Char)
  | 0, _ => none
  | fuel + 1, cs => do
    let (items, rest) ← items fuel cs
    match rest with
    | '|' :: rest =>
      let (others, rest) ← alternatives fuel rest
      return (.alt (.sequence items) others, rest)
    | _ => return (.sequence items, rest)

/-- The items of a sequence, up to the end, a bar or a closing parenthesis. -/
def items : Nat → List Char → Option (List Pattern × List Char)
  | 0, _ => none
  | _ + 1, [] => some ([], [])
  | _ + 1, '|' :: rest => some ([], '|' :: rest)
  | _ + 1, ')' :: rest => some ([], ')' :: rest)
  | fuel + 1, cs => do
    let (first, rest) ← item fuel cs
    let (first, rest) ← repetitions (rest.length + 1) first rest
    let (more, rest) ← items fuel rest
    return (first :: more, rest)

/-- One item, without what repeats it. -/
def item : Nat → List Char → Option (Pattern × List Char)
  | 0, _ => none
  | fuel + 1, '(' :: rest => do
    match ← alternatives fuel rest with
    | (p, ')' :: rest) => some (.group p, rest)
    | _ => none
  | fuel + 1, '[' :: rest => (bracketed fuel rest).map fun (set, rest) => (.anyOf set, rest)
  | _ + 1, '\\' :: c :: rest => (escaped? c).map fun e => (e.pattern, rest)
  | _ + 1, '\\' :: [] => none
  | _ + 1, '.' :: rest => some (.notBreak, rest)
  | _ + 1, '^' :: rest => some (.edge .start, rest)
  | _ + 1, '$' :: rest => some (.edge .finish, rest)
  | _ + 1, '*' :: _ => none
  | _ + 1, '+' :: _ => none
  | _ + 1, '?' :: _ => none
  | _ + 1, '\x7b' :: _ => none
  | _ + 1, c :: rest => some (.char c, rest)
  | _ + 1, [] => none

end

end Parser

/-- The deepest nesting of a pattern. -/
def maxNesting : Nat := 250

/-- Reads a pattern; none when the text is not one. -/
def parse? (s : String) : Option Pattern :=
  let cs := s.toList
  match Parser.alternatives (3 * cs.length + 3) cs with
  | some (p, []) => if p.nesting ≤ maxNesting then some p else none
  | _ => none

end FleetLedger.Pattern

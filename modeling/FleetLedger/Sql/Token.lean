import FleetLedger.Sql.Statement

/-!
# How a database reads the text of a statement

A text is cut into tokens from the left, one character after the other.  What a character makes of the
text so far is decided by what stands before it (`Mode`): most of all, whether it stands in a literal.
A literal begins and ends with a quotation mark, and a doubled mark in it is one mark of the text that
it stands for; no other character means anything there, the backslash included.

Texts are read strictly.  Where tokens run into each other so that databases differ, or that it takes
more of the language to tell what is meant, there is no reading: comments, quoted names, marks after a
letter, letters after a placeholder, blanks other than the space.
-/

namespace FleetLedger.Sql

/-- A part of the text of a statement. -/
inductive Token where
  /-- A name, a word of the language, or a number. -/
  | word (text : String)
  /-- An operator that is written in signs. -/
  | sign (text : String)
  /-- A parenthesis, a bracket, a comma or a dot. -/
  | mark (c : Char)
  /-- A literal, with the text that it stands for. -/
  | literal (value : String)
  | parameter (number : Nat)
  deriving Repr, DecidableEq

namespace Token

/-- The characters of words. -/
def isWordChar (c : Char) : Bool := c.isAlphanum || c == '_'

/-- The characters of operators. -/
def isSignChar (c : Char) : Bool :=
  ['+', '-', '*', '/', '<', '>', '=', '~', '!', '@', '#', '%', '^', '&', '|', '?', ':'].contains c

/-- The characters that are tokens. -/
def isMark (c : Char) : Bool := ['(', ')', '[', ']', ',', '.'].contains c

/-- The operators that are known.  None of them begins a comment. -/
def operators : List (List Char) :=
  [['='], ['<'], ['<', '='], ['>'], ['>', '='], ['-', '>'], ['-', '>', '>'], ['|', '|'], ['+'], ['-'],
    ['*'], [':', ':'], ['~', '*']]

/-- What stands before a character, as far as it bears on the reading. -/
inductive Mode where
  | between
  /-- Within a word. -/
  | word (cs : List Char)
  /-- Within an operator. -/
  | sign (cs : List Char)
  /-- Behind the dollar sign of a placeholder. -/
  | parameter (cs : List Char)
  /-- Within a literal. -/
  | literal (cs : List Char)
  /-- Behind a quotation mark in a literal, which ends it unless another one follows. -/
  | closing (cs : List Char)
  deriving Repr, DecidableEq

namespace Mode

/-- The character belongs to the token before it. -/
def extend? : Mode → Char → Option Mode
  | between, _ => none
  | word cs, c => if isWordChar c then some (word (cs ++ [c])) else none
  | sign cs, c => if isSignChar c then some (sign (cs ++ [c])) else none
  | parameter cs, c => if c.isDigit then some (parameter (cs ++ [c])) else none
  | literal cs, c => some (if c = '\'' then closing cs else literal (cs ++ [c]))
  | closing cs, c => if c = '\'' then some (literal (cs ++ ['\''])) else none

/-- The character must not follow on the token before it. -/
def clashes : Mode → Char → Bool
  | word _, c => c == '\'' || c == '$'
  | parameter _, c => isWordChar c || c == '\'' || c == '$'
  | _, _ => false

/-- The token that ends here, if one does; a literal must not. -/
def finish : Mode → Option (List Token)
  | between => some []
  | word cs => some [.word (String.ofList cs)]
  | sign cs => if operators.contains cs then some [.sign (String.ofList cs)] else none
  | parameter cs => if cs.isEmpty then none else some [.parameter (Nat.ofDigitChars 10 cs 0)]
  | literal _ => none
  | closing cs => some [.literal (String.ofList cs)]

/-- What a character begins that belongs to no token before it. -/
def start (c : Char) : Option (List Token × Mode) :=
  if c = ' ' then some ([], between)
  else if c = '\'' then some ([], literal [])
  else if c = '$' then some ([], parameter [])
  else if isMark c then some ([.mark c], between)
  else if isSignChar c then some ([], sign [c])
  else if isWordChar c then some ([], word [c])
  else none

/-- Reads a character: the tokens that are complete with it, and where one is then. -/
def step (m : Mode) (c : Char) : Option (List Token × Mode) :=
  match m.extend? c with
  | some next => some ([], next)
  | none =>
    if m.clashes c then none
    else
      match m.finish, start c with
      | some ended, some (begun, next) => some (ended ++ begun, next)
      | _, _ => none

/-- The tokens of a text that is read to its end. -/
def tokens? (m : Mode) : List Char → Option (List Token)
  | [] => m.finish
  | c :: cs =>
    match m.step c with
    | some (tokens, next) => (next.tokens? cs).map (tokens ++ ·)
    | none => none

end Mode

/-- **The tokens of a text**, if it can be read. -/
def lex? (text : String) : Option (List Token) := Mode.between.tokens? text.toList

end Token

end FleetLedger.Sql

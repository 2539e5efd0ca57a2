import FleetLedger.Json.Document

/-!
# Statements

A statement is a text in which numbered placeholders stand for values that are handed over beside it.
It is put together from pieces: words of the language, literals that name fields, and values.  Only
words stand in the text as they are.  A literal stands between quotation marks, with the marks in it
doubled, so it ends where it should; a value does not stand in the text at all.  The placeholders are
numbered from the left, in the order of the values.
-/

namespace FleetLedger.Sql

/-- A value that is handed over beside a statement. -/
inductive Bind where
  | text (value : String)
  | int8 (value : Int)
  | jsonb (value : Json)
  | textArray (values : List String)

/-- A piece of a statement. -/
inductive Piece where
  /-- Text of the language. -/
  | word (text : String)
  /-- A literal that stands for a text. -/
  | literal (value : String)
  /-- A placeholder for a value. -/
  | value (bind : Bind)

/-- A statement. -/
abbrev Statement := List Piece

namespace Statement

/-- The inside of a literal: each quotation mark is doubled. -/
def doubled (cs : List Char) : List Char :=
  cs.flatMap fun c => if c = '\'' then ['\'', '\''] else [c]

/-- A literal with its quotation marks. -/
def quoted (value : String) : String := "'" ++ String.ofList (doubled value.toList) ++ "'"

/-- The text of a piece, if it is a value with the given number. -/
def pieceText (number : Nat) : Piece → String
  | .word text => text
  | .literal value => quoted value
  | .value _ => "$" ++ toString number

/-- How many numbers a piece takes. -/
def width : Piece → Nat
  | .value _ => 1
  | _ => 0

/-- The texts of pieces, with placeholders numbered from `number` on. -/
def textsFrom (number : Nat) : Statement → List String
  | [] => []
  | p :: ps => pieceText number p :: textsFrom (number + width p) ps

/-- The text of a statement. -/
def text (s : Statement) : String := String.join (textsFrom 1 s)

/-- The values of a statement in the order of their numbers. -/
def binds (s : Statement) : List Bind :=
  s.filterMap fun
    | .value bind => some bind
    | _ => none

/-- The values of a statement come in the order of its parts. -/
theorem binds_append (s t : Statement) : binds (s ++ t) = binds s ++ binds t :=
  List.filterMap_append

/-- Lists of pieces with a word between each two of them. -/
def separatedBy (separator : String) : List Statement → Statement
  | [] => []
  | [s] => s
  | s :: t :: rest => s ++ .word separator :: separatedBy separator (t :: rest)

/-- A field of a document, as a value. -/
def field (column name : String) : Statement :=
  [.word ("(" ++ column ++ " -> "), .literal name, .word ")"]

/-- A field of a document, as a text. -/
def fieldText (column name : String) : Statement :=
  [.word ("(" ++ column ++ " ->> "), .literal name, .word ")"]

end Statement

end FleetLedger.Sql

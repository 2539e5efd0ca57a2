import FleetLedger.Json.Basic
import FleetLedger.Number.Shortest

/-!
# The text of a value

A value is written compactly: no blanks, the fields of an object in the order of their names, a
float with the fewest digits that name it.  In a string the quotation mark and the backslash are
escaped, and the control characters below the space; all other characters stand for themselves.
-/

namespace FleetLedger.Json

/-- One character of a string. -/
def escape (c : Char) : List Char :=
  match c with
  | '"' => ['\\', '"']
  | '\\' => ['\\', '\\']
  | '\n' => ['\\', 'n']
  | '\r' => ['\\', 'r']
  | '\t' => ['\\', 't']
  | '\x08' => ['\\', 'b']
  | '\x0c' => ['\\', 'f']
  | c =>
    if c.toNat < 0x20 then
      ['\\', 'u', '0', '0', Nat.digitChar (c.toNat / 16), Nat.digitChar (c.toNat % 16)]
    else [c]

/-- A string between quotation marks. -/
def stringText (s : String) : List Char := '"' :: s.toList.flatMap escape ++ ['"']

/-- An integer in decimal digits. -/
def intText (n : Int) : List Char :=
  if n < 0 then '-' :: Nat.toDigits 10 n.natAbs else Nat.toDigits 10 n.natAbs

mutual

/-- The characters of a value. -/
def chars : Json → List Char
  | null => ['n', 'u', 'l', 'l']
  | bool true => ['t', 'r', 'u', 'e']
  | bool false => ['f', 'a', 'l', 's', 'e']
  | int n => intText n
  | float x => x.text.toList
  | string s => stringText s
  | array [] => ['[', ']']
  | array (a :: as) => '[' :: chars a ++ restItems as
  | object [] => ['\x7b', '\x7d']
  | object ((k, v) :: fields) => '\x7b' :: stringText k ++ ':' :: chars v ++ restFields fields

/-- The items after the first one, and the closing bracket. -/
def restItems : List Json → List Char
  | [] => [']']
  | a :: as => ',' :: chars a ++ restItems as

/-- The fields after the first one, and the closing brace. -/
def restFields : List (String × Json) → List Char
  | [] => ['\x7d']
  | (k, v) :: fields => ',' :: stringText k ++ ':' :: chars v ++ restFields fields

end

/-- The compact text of a value. -/
def text (j : Json) : String := String.ofList (chars j)

end FleetLedger.Json

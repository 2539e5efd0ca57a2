import FleetLedger.Text.Visible

/-!
# Quoted text in messages

A message that shows a value a person wrote puts it between quotation marks, with everything that
would not show, or would end the quotation, written as an escape.
-/

namespace FleetLedger.Quoted

/-- A number in lower-case hexadecimal digits, without leading zeros. -/
def hex (n : Nat) : List Char := Nat.toDigits 16 n

/-- One character inside quotation marks: the usual short escapes, the character itself when it
shows, and its code point in hexadecimal otherwise. -/
def escape (c : Char) : List Char :=
  match c with
  | '"' => ['\\', '"']
  | '\\' => ['\\', '\\']
  | '\n' => ['\\', 'n']
  | '\t' => ['\\', 't']
  | '\r' => ['\\', 'r']
  | '\x00' => ['\\', '0']
  | c => if Visible.isVisible c then [c] else ['\\', 'u', '\x7b'] ++ hex c.toNat ++ ['\x7d']

/-- A text between quotation marks, escaped. -/
def quote (s : String) : String :=
  String.ofList ('"' :: s.toList.flatMap escape ++ ['"'])

end FleetLedger.Quoted

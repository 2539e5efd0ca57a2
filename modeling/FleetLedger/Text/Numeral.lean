/-!
# Reading integers within bounds

A typed integer is an optional sign and at least one ASCII digit, nothing else.  Its digits are
taken from the left and the value so far is held against the bounds after each one, so of two
faults in a numeral the one further left is reported: `99999x` read as a byte is too large, `9x99`
is not a number.  The minus sign is a sign only where the bounds admit negative numbers.
-/

namespace FleetLedger.Numeral

/-- Why a text is no integer within the bounds. -/
inductive Fault where
  | empty
  | badDigit
  | tooLarge
  | tooSmall
  deriving Repr, DecidableEq

/-- The fault as it appears in messages. -/
def Fault.message : Fault → String
  | .empty => "cannot parse integer from empty string"
  | .badDigit => "invalid digit found in string"
  | .tooLarge => "number too large to fit in target type"
  | .tooSmall => "number too small to fit in target type"

/-- The value of an ASCII digit. -/
def digit (c : Char) : Nat := c.toNat - '0'.toNat

/-- Continues the value `n` with the digits `cs`, as long as it does not exceed `limit`. -/
def accumulate (limit : Nat) (excess : Fault) : Nat → List Char → Except Fault Nat
  | n, [] => .ok n
  | n, c :: cs =>
    if c.isDigit then
      let next := n * 10 + digit c
      if next ≤ limit then accumulate limit excess next cs else .error excess
    else .error .badDigit

/-- Reads an integer between `low` and `high`. -/
def read (low high : Int) (s : String) : Except Fault Int :=
  match s.toList with
  | [] => .error .empty
  | ['+'] => .error .badDigit
  | ['-'] => .error .badDigit
  | '+' :: ds => (Int.ofNat ·) <$> accumulate high.toNat .tooLarge 0 ds
  | '-' :: ds =>
    if low < 0 then (- Int.ofNat ·) <$> accumulate (-low).toNat .tooSmall 0 ds
    else .error .badDigit
  | ds => (Int.ofNat ·) <$> accumulate high.toNat .tooLarge 0 ds

/-- Reads a natural number up to `high`. -/
def readNat (high : Nat) (s : String) : Except Fault Nat :=
  (·.toNat) <$> read 0 high s

end FleetLedger.Numeral

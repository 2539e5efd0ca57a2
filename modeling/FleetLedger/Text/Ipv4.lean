/-!
# Addresses of the fourth internet protocol

Four numbers below 256 with points between them, each in its shortest decimal form: a number that
starts with a zero has no other digit, because some readers would take it for octal.
-/

namespace FleetLedger

/-- An address of four bytes. -/
structure Ipv4 where
  bytes : List UInt8
  four : bytes.length = 4 := by rfl
  deriving DecidableEq

namespace Ipv4

/-- One of the four numbers. -/
def byte? (cs : List Char) : Option UInt8 :=
  let n := cs.foldl (fun n c => n * 10 + (c.toNat - '0'.toNat)) 0
  if cs.isEmpty || !cs.all Char.isDigit || 3 < cs.length || (cs.head? == some '0' && 1 < cs.length)
      || 255 < n then
    none
  else some n.toUInt8

/-- The parts of a text between its points. -/
def parts (cs : List Char) : List (List Char) :=
  cs.foldr (fun c acc =>
    match c, acc with
    | '.', acc => [] :: acc
    | c, part :: rest => (c :: part) :: rest
    | c, [] => [[c]]) [[]]

/-- Reads an address. -/
def read? (s : String) : Option Ipv4 := do
  let bytes ← (parts s.toList).mapM byte?
  if h : bytes.length = 4 then some ⟨bytes, h⟩ else none

/-- An address in decimal numbers. -/
def text (a : Ipv4) : String := ".".intercalate (a.bytes.map fun b => toString b.toNat)

end Ipv4

end FleetLedger

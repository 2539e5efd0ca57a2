import FleetLedger.Calendar.Timestamp

/-!
# Ids of executions

An execution that comes without an id is given one: 32 hexadecimal digits that carry the time in
milliseconds, the version 7 and the variant of universally unique identifiers, and a serial number.
The time in an id never goes back, even when the clock does, and the serial number always goes
forward, so later ids are larger texts.
-/

namespace FleetLedger.RecordId

/-- What the next id depends on: the latest time in an id so far, and how many ids there were. -/
structure Source where
  latest : Nat := 0
  count : Nat := 0

/-- The last `width` hexadecimal digits of a number. -/
def hex : Nat → Nat → List Char
  | 0, _ => []
  | width + 1, n => hex width (n / 16) ++ [Nat.digitChar (n % 16)]

/-- The id of a time and a serial number. -/
def text (millis serial : Nat) : String :=
  String.ofList <|
    hex 12 millis ++ '7' :: hex 3 (serial / Nat.pow 2 60) ++ '8' :: hex 15 (serial % Nat.pow 2 60)

/-- The next id at a given time. -/
def Source.next (s : Source) (now : Timestamp) : String × Source :=
  let latest := max s.latest now.millis.toNat
  (text latest (s.count + 1), ⟨latest, s.count + 1⟩)

/-- `n` ids at a given time. -/
def Source.take (s : Source) (now : Timestamp) : Nat → List String
  | 0 => []
  | n + 1 =>
    let (id, s) := s.next now
    id :: s.take now n

/-- `n` ids by a clock, which is read only if there are ids to make. -/
def Source.takeBy? (s : Source) (clock : Timestamp) (n : Nat) : Option (List String) :=
  if n = 0 then some [] else clock.shown?.map fun now => s.take now n

/-- The form of an id: 32 lower-case hexadecimal digits, of version 7, in the usual variant. -/
def hasForm (s : String) : Bool :=
  let cs := s.toList
  cs.length == 32 && cs.all (fun c => c.isDigit || ('a' ≤ c && c ≤ 'f'))
    && cs[12]? == some '7' && cs[16]?.any (fun c => ['8', '9', 'a', 'b'].contains c)

/-- Every text is larger than the one before. -/
def increasing : List String → Bool
  | a :: b :: rest => a < b && increasing (b :: rest)
  | _ => true

end FleetLedger.RecordId

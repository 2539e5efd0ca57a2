import FleetLedger.Number.Binary64

/-!
# The shortest decimal that names a float

Every real number near a float is read back as that float: those up to half-way to its neighbours,
and the half-way points too when the mantissa is even, because ties go to the even one.  Among the
decimals in this interval the ones with the fewest digits are the candidates, and of those the one
nearest to the float is its text.

On the grid of decimals with a given last place, if any point lies in the interval then one of the
two grid points around the float does, so only these two are tried, for ever finer grids.  Seventeen
digits always suffice.

The chosen digits are written out in full, or with a power of ten for very large and very small
numbers.
-/

namespace FleetLedger.Binary64

/-- `digits · 10 ^ exponent`. -/
structure Decimal where
  digits : Nat
  exponent : Int
  deriving Repr, DecidableEq

/-- The interval of reals that round to a positive float: lower end, upper end and the float itself,
all three over one denominator, and whether the ends belong to it. -/
structure Interval where
  low : Nat
  high : Nat
  value : Nat
  den : Nat
  closed : Bool

/-- The interval around the magnitude of a float.  Below a power of two the floats are twice as
close, so the lower end is then nearer. -/
def interval (x : Binary64) : Interval :=
  let (num, den) := x.ratio
  let step := Nat.pow 2 x.exponent.toNat
  let below := if x.mantissa = Nat.pow 2 52 ∧ -1074 < x.exponent then 1 else 2
  { low := 4 * num - below * step
    high := 4 * num + 2 * step
    value := 4 * num
    den := 4 * den
    closed := x.mantissa % 2 == 0 }

/-- `n · 10 ^ place` lies in the interval. -/
def Interval.holds (i : Interval) (n : Nat) (place : Int) : Bool :=
  let up := if 0 ≤ place then Nat.pow 10 place.toNat else 1
  let down := if 0 ≤ place then 1 else Nat.pow 10 (-place).toNat
  let point := n * up * i.den
  if i.closed then i.low * down ≤ point && point ≤ i.high * down
  else i.low * down < point && point < i.high * down

/-- The grid point next to the float that names it, if one of the two does; of two the nearer, of
two equally near the even one. -/
def Interval.pick? (i : Interval) (place : Int) : Option Nat :=
  let up := if 0 ≤ place then Nat.pow 10 place.toNat else 1
  let down := if 0 ≤ place then 1 else Nat.pow 10 (-place).toNat
  let floor := i.value * down / (i.den * up)
  let rest := i.value * down % (i.den * up)
  match i.holds floor place, i.holds (floor + 1) place with
  | true, true =>
    if 2 * rest < i.den * up then some floor
    else if i.den * up < 2 * rest then some (floor + 1)
    else some (floor + floor % 2)
  | true, false => some floor
  | false, true => some (floor + 1)
  | false, false => none

/-- The number of decimal places before the point: the least `k` with the value below `10 ^ k`. -/
def Interval.places (i : Interval) : Int :=
  let shift : Nat := 400
  ((Nat.toDigits 10 (i.value * Nat.pow 10 shift / i.den)).length : Int) - shift

/-- Tries the grids from `place` downwards. -/
def Interval.search (i : Interval) : Nat → Int → Decimal
  | 0, place => ⟨i.value * Nat.pow 10 (-place).toNat / i.den, place⟩
  | tries + 1, place =>
    match i.pick? place with
    | some n => ⟨n, place⟩
    | none => i.search tries (place - 1)

/-- A decimal without zeros at its end. -/
def Decimal.strip : Nat → Decimal → Decimal
  | 0, d => d
  | fuel + 1, d =>
    if d.digits % 10 = 0 ∧ d.digits ≠ 0 then Decimal.strip fuel ⟨d.digits / 10, d.exponent + 1⟩
    else d

/-- The shortest decimal that names the magnitude of a float. -/
def shortest (x : Binary64) : Decimal :=
  if x.mantissa = 0 then ⟨0, 0⟩
  else
    let i := x.interval
    (i.search 17 (i.places - 1)).strip 20

/-! ## Layouts -/

/-- `n` zeros. -/
def zeros (n : Nat) : List Char := List.replicate n '0'

/-- Digits with all places written out, and at least one place after the point. -/
def Decimal.plain (d : Decimal) : List Char :=
  let digits := Nat.toDigits 10 d.digits
  let before := (digits.length : Int) + d.exponent
  if 0 ≤ d.exponent then digits ++ zeros d.exponent.toNat ++ ['.', '0']
  else if 0 < before then digits.take before.toNat ++ '.' :: digits.drop before.toNat
  else ['0', '.'] ++ zeros (-before).toNat ++ digits

/-- Digits with one place before the point and a power of ten, whose exponent always has a sign. -/
def Decimal.scientific (d : Decimal) : List Char :=
  let digits := Nat.toDigits 10 d.digits
  let power := (digits.length : Int) + d.exponent - 1
  let exponent := (if power < 0 then '-' else '+') :: Nat.toDigits 10 power.natAbs
  match digits with
  | [c] => c :: 'e' :: exponent
  | c :: rest => c :: '.' :: rest ++ 'e' :: exponent
  | [] => []

/-- Numbers from 0.00001 up to sixteen places before the point are written out; all others have a
power of ten. -/
def Decimal.layout (d : Decimal) : List Char :=
  let before := ((Nat.toDigits 10 d.digits).length : Int) + d.exponent
  if d.digits = 0 ∨ (-5 < before ∧ before ≤ 16) then d.plain else d.scientific

/-- The sign of a float in front of its digits; zero has one, too. -/
def signed (x : Binary64) (digits : List Char) : String :=
  String.ofList (if x.negative then '-' :: digits else digits)

/-- The text of a float. -/
def text (x : Binary64) : String := signed x x.shortest.layout

end FleetLedger.Binary64

/-!
# Finite binary floating-point numbers

A 64-bit float that is neither infinite nor undefined is a signed whole number below 2⁵³ times a
power of two, and every question this library asks of one (which of two is larger, which decimal
digits name it) is a question about whole numbers.  So the float is kept in that form, and rounding
is done once, in `ofRatio?`: a positive rational goes to the nearest float, a tie to the one with
the even whole number.

A decimal literal is read in two roundings, as readers do that do not keep all its digits: its
digits are rounded to a float, and that float is multiplied or divided by the float nearest to the
power of ten.
-/

namespace FleetLedger

/-- The finite float `± mantissa · 2 ^ exponent`, in its one normal form: the mantissa fills 53
bits, unless the exponent is the least one. -/
structure Binary64 where
  negative : Bool
  mantissa : Nat
  exponent : Int
  normal : mantissa < Nat.pow 2 53 ∧ -1074 ≤ exponent ∧ exponent ≤ 971 ∧
    (Nat.pow 2 52 ≤ mantissa ∨ exponent = -1074) := by decide
  deriving DecidableEq

namespace Binary64

/-- Positive zero. -/
def zero : Binary64 := ⟨false, 0, -1074, by decide⟩

/-- The same number with the opposite sign. -/
def neg (x : Binary64) : Binary64 := { x with negative := !x.negative }

/-- The number counted in units of the smallest float: an exact integer, so floats are ordered as
these integers are. -/
def units (x : Binary64) : Int :=
  let size := x.mantissa * Nat.pow 2 (x.exponent + 1074).toNat
  if x.negative then - (size : Int) else size

/-- Numeric order; the two zeros are equal. -/
def order (x y : Binary64) : Ordering := compare x.units y.units

/-- Numeric equality. -/
def equal (x y : Binary64) : Bool := x.units == y.units

/-- The magnitude as a fraction of whole numbers. -/
def ratio (x : Binary64) : Nat × Nat :=
  if 0 ≤ x.exponent then (x.mantissa * Nat.pow 2 x.exponent.toNat, 1)
  else (x.mantissa, Nat.pow 2 (-x.exponent).toNat)

/-- The quotient of two whole numbers, rounded to the nearest whole number; halves go to the even
neighbour. -/
def roundDiv (num den : Nat) : Nat :=
  let quotient := num / den
  let twice := 2 * (num % den)
  if twice < den then quotient
  else if den < twice then quotient + 1
  else quotient + quotient % 2

/-- `num / den` counted in units of `2 ^ e`, as a fraction. -/
def scaled (num den : Nat) (e : Int) : Nat × Nat :=
  if 0 ≤ e then (num, den * Nat.pow 2 e.toNat) else (num * Nat.pow 2 (-e).toNat, den)

/-- The exponent at which `num / den` fills 53 bits, or the least exponent. -/
def exponentFor (num den : Nat) : Int :=
  let guess : Int := (num.log2 : Int) - den.log2 - 52
  let (n, d) := scaled num den guess
  max (-1074) (if n / d < Nat.pow 2 52 then guess - 1 else guess)

/-- The float nearest to `num / den`, with the given sign; none where it would be infinite. -/
def ofRatio? (negative : Bool) (num den : Nat) : Option Binary64 :=
  let e := if num = 0 then -1074 else exponentFor num den
  let (n, d) := scaled num den e
  let m := roundDiv n d
  let (m, e) := if m = Nat.pow 2 53 then (Nat.pow 2 52, e + 1) else (m, e)
  if h : m < Nat.pow 2 53 ∧ -1074 ≤ e ∧ e ≤ 971 ∧ (Nat.pow 2 52 ≤ m ∨ e = -1074) then some ⟨negative, m, e, h⟩
  else none

/-- The float nearest to a whole number; none where it would be infinite. -/
def ofNat? (n : Nat) : Option Binary64 := ofRatio? false n 1

/-- The product of the magnitudes, rounded. -/
def mul? (x y : Binary64) : Option Binary64 :=
  let (a, b) := x.ratio
  let (c, d) := y.ratio
  ofRatio? false (a * c) (b * d)

/-- The quotient of the magnitudes, rounded. -/
def div? (x y : Binary64) : Option Binary64 :=
  let (a, b) := x.ratio
  let (c, d) := y.ratio
  ofRatio? false (a * d) (b * c)

/-- The float nearest to an integer, for integers of up to a thousand bits. -/
def ofInt (n : Int) : Binary64 :=
  match ofNat? n.natAbs with
  | some x => if n < 0 then x.neg else x
  | none => zero

/-- The largest power of ten that is multiplied or divided in one step. -/
def greatestPower : Nat := 308

/-- Reads `digits · 10 ^ exponent`; none where it is too large for a float.

A power beyond the greatest one is divided off first, which happens at most twice before nothing
is left of a 64-bit whole number. -/
def ofDecimal? (negative : Bool) (digits : Nat) (exponent : Int) : Option Binary64 := do
  let power := fun (k : Nat) => ofNat? (Nat.pow 10 k)
  let lead ← ofNat? digits
  let size ←
    if lead.mantissa = 0 then some zero
    else if 0 ≤ exponent then
      if exponent ≤ greatestPower then lead.mul? (← power exponent.toNat) else none
    else if -greatestPower ≤ exponent then lead.div? (← power (-exponent).toNat)
    else if -(2 * greatestPower) ≤ exponent then do
      let less ← lead.div? (← power greatestPower)
      less.div? (← power (-exponent - greatestPower).toNat)
    else some zero
  return if negative then size.neg else size

end Binary64

end FleetLedger

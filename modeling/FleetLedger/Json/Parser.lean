import FleetLedger.Json.Written

/-!
# Reading JSON

The grammar is the strict one: no comments, no commas at the end of a list, no signs but the minus,
no zeros in front of a number, blanks only between tokens, and nothing but blanks after the value.

Each reader takes the characters from where it stands and returns what it read with the characters
after it.  The readers of values call each other once per token, so the number of characters bounds
their steps; that bound is the fuel, which `read` supplies.

A number without point and exponent is an integer when it fits into 64 bits, signed or unsigned;
every other number is a float.  Digits beyond what 64 bits hold only shift the exponent.
-/

namespace FleetLedger.Json.Parser

/-- The characters after the blanks. -/
def skipBlanks (cs : List Char) : List Char :=
  cs.dropWhile fun c => c == ' ' || c == '\n' || c == '\t' || c == '\r'

/-! ## Strings -/

/-- The value of a hexadecimal digit. -/
def hexDigit? (c : Char) : Option Nat :=
  if c.isDigit then some (c.toNat - '0'.toNat)
  else if 'a' ≤ c ∧ c ≤ 'f' then some (c.toNat - 'a'.toNat + 10)
  else if 'A' ≤ c ∧ c ≤ 'F' then some (c.toNat - 'A'.toNat + 10)
  else none

/-- The code unit of four hexadecimal digits. -/
def codeUnit? (a b c d : Char) : Option Nat := do
  return (((← hexDigit? a) * 16 + (← hexDigit? b)) * 16 + (← hexDigit? c)) * 16 + (← hexDigit? d)

/-- The character of a one-letter escape. -/
def shortEscape? : Char → Option Char
  | '"' => some '"'
  | '\\' => some '\\'
  | '/' => some '/'
  | 'b' => some '\x08'
  | 'f' => some '\x0c'
  | 'n' => some '\n'
  | 'r' => some '\r'
  | 't' => some '\t'
  | _ => none

/-- Reads the rest of a string, up to its closing mark, as code points; an escape may also stand
for half of a surrogate pair. -/
def stringUnits : List Char → Option (List Nat × List Char)
  | '"' :: rest => some ([], rest)
  | '\\' :: 'u' :: a :: b :: c :: d :: rest => do
    let unit ← codeUnit? a b c d
    let (units, rest) ← stringUnits rest
    return (unit :: units, rest)
  | '\\' :: e :: rest => do
    let c ← shortEscape? e
    let (units, rest) ← stringUnits rest
    return (c.toNat :: units, rest)
  | c :: rest =>
    if c == '\\' || c.toNat < 0x20 then none
    else do
      let (units, rest) ← stringUnits rest
      return (c.toNat :: units, rest)
  | [] => none

/-- The characters of code points: a high half followed by a low half is one character, any other
half is none. -/
def ofUnits? : List Nat → Option (List Char)
  | [] => some []
  | high :: low :: rest =>
    if 0xD800 ≤ high ∧ high ≤ 0xDBFF then
      if 0xDC00 ≤ low ∧ low ≤ 0xDFFF then
        (ofUnits? rest).map (Char.ofNat (0x10000 + (high - 0xD800) * 0x400 + (low - 0xDC00)) :: ·)
      else none
    else if 0xDC00 ≤ high ∧ high ≤ 0xDFFF then none
    else (ofUnits? (low :: rest)).map (Char.ofNat high :: ·)
  | [unit] => if 0xD800 ≤ unit ∧ unit ≤ 0xDFFF then none else some [Char.ofNat unit]

/-- Reads a string after its opening mark. -/
def stringBody (cs : List Char) : Option (Option String × List Char) := do
  let (units, rest) ← stringUnits cs
  return ((ofUnits? units).map String.ofList, rest)

/-! ## Numbers -/

/-- The greatest whole number of 64 bits. -/
def greatestWord : Nat := 18446744073709551615

/-- Digits taken as a whole number, with the power of ten by which the digits that did not fit
exceed it. -/
structure Significand where
  value : Nat
  exponent : Int
  full : Bool

/-- Takes one digit; once a digit does not fit, no later one of the same part is taken. -/
def Significand.push (s : Significand) (fraction : Bool) (c : Char) : Significand :=
  let next := s.value * 10 + (c.toNat - '0'.toNat)
  if s.full || greatestWord < next then
    { s with full := true, exponent := if fraction then s.exponent else s.exponent + 1 }
  else { s with value := next, exponent := if fraction then s.exponent - 1 else s.exponent }

/-- Exponents are held against this bound. -/
def greatestExponent : Int := 2147483647

/-- The value of an exponent's digits. -/
def exponentValue (ds : List Char) : Nat :=
  ds.foldl (fun n c => n * 10 + (c.toNat - '0'.toNat)) 0

/-- The float of a significand and a written exponent.  An exponent out of all bounds leaves zero,
or no float, without regard to the digits. -/
def floatOf (negative : Bool) (s : Significand) (down : Bool) (exponent : Nat) : Written :=
  if greatestExponent < exponent then
    if s.value ≠ 0 ∧ !down then .oversized
    else .float (if negative then Binary64.zero.neg else Binary64.zero)
  else
    match Binary64.ofDecimal? negative s.value
        (if down then s.exponent - exponent else s.exponent + exponent) with
    | some x => .float x
    | none => .oversized

/-- Reads an exponent, after its letter. -/
def exponentPart (negative : Bool) (s : Significand) (cs : List Char) :
    Option (Written × List Char) :=
  let (down, cs) : Bool × List Char := match cs with
    | '+' :: rest => (false, rest)
    | '-' :: rest => (true, rest)
    | _ => (false, cs)
  match cs.takeWhile Char.isDigit with
  | [] => none
  | ds => some (floatOf negative s down (exponentValue ds), cs.dropWhile Char.isDigit)

/-- The fraction is a part of its own: its first digit is tried afresh. -/
def Significand.fraction (s : Significand) (ds : List Char) : Significand :=
  ds.foldl (·.push true ·) { s with full := false }

/-- The number of digits alone: an integer if it fits, and is no negative zero. -/
def wholeNumber (negative : Bool) (s : Significand) : Written :=
  if s.full then floatOf negative s false 0
  else if !negative then .int s.value
  else if s.value = 0 ∨ 9223372036854775808 < s.value then floatOf negative s false 0
  else .int (-s.value)

/-- Reads a number after its sign: digits, then perhaps a fraction, then perhaps an exponent. -/
def magnitude (negative : Bool) (cs : List Char) : Option (Written × List Char) :=
  let ds := cs.takeWhile Char.isDigit
  let rest := cs.dropWhile Char.isDigit
  if ds.isEmpty || (ds.length > 1 && ds.head? == some '0') then none
  else
    let s := ds.foldl (·.push false ·) ⟨0, 0, false⟩
    match rest with
    | '.' :: rest =>
      let fs := rest.takeWhile Char.isDigit
      let rest := rest.dropWhile Char.isDigit
      let s := s.fraction fs
      if fs.isEmpty then none
      else match rest with
        | 'e' :: rest | 'E' :: rest => exponentPart negative s rest
        | _ => some (floatOf negative s false 0, rest)
    | 'e' :: rest | 'E' :: rest => exponentPart negative s rest
    | _ => some (wholeNumber negative s, rest)

/-! ## Values -/

mutual

/-- Reads a value; blanks may stand before it. -/
def value : Nat → List Char → Option (Written × List Char)
  | 0, _ => none
  | fuel + 1, cs =>
    match skipBlanks cs with
    | 'n' :: 'u' :: 'l' :: 'l' :: rest => some (.null, rest)
    | 't' :: 'r' :: 'u' :: 'e' :: rest => some (.bool true, rest)
    | 'f' :: 'a' :: 'l' :: 's' :: 'e' :: rest => some (.bool false, rest)
    | '"' :: rest => do
      let (s, rest) ← stringBody rest
      return (.string s, rest)
    | '[' :: rest =>
      match skipBlanks rest with
      | ']' :: rest => some (.array [], rest)
      | rest => do
        let (items, rest) ← items fuel rest
        return (.array items, rest)
    | '\x7b' :: rest =>
      match skipBlanks rest with
      | '\x7d' :: rest => some (.object [], rest)
      | rest => do
        let (fields, rest) ← fields fuel rest
        return (.object fields, rest)
    | '-' :: rest => magnitude true rest
    | rest => magnitude false rest

/-- Reads at least one item, and the closing bracket. -/
def items : Nat → List Char → Option (List Written × List Char)
  | 0, _ => none
  | fuel + 1, cs => do
    let (item, rest) ← value fuel cs
    match skipBlanks rest with
    | ']' :: rest => return ([item], rest)
    | ',' :: rest =>
      let (more, rest) ← items fuel rest
      return (item :: more, rest)
    | _ => none

/-- Reads at least one field, and the closing brace. -/
def fields : Nat → List Char → Option (List (Option String × Written) × List Char)
  | 0, _ => none
  | fuel + 1, cs =>
    match skipBlanks cs with
    | '"' :: rest => do
      let (name, rest) ← stringBody rest
      match skipBlanks rest with
      | ':' :: rest =>
        let (field, rest) ← value fuel rest
        match skipBlanks rest with
        | '\x7d' :: rest => return ([(name, field)], rest)
        | ',' :: rest =>
          let (more, rest) ← fields fuel rest
          return ((name, field) :: more, rest)
        | _ => none
      | _ => none
    | _ => none

end

end Parser

/-- Reads a whole text. -/
def Written.read? (s : String) : Option Written :=
  let cs := s.toList
  match Parser.value (2 * cs.length + 2) cs with
  | some (w, rest) => if (Parser.skipBlanks rest).isEmpty then some w else none
  | none => none

/-- The value that a text spells. -/
def ofText? (s : String) : Option Json := (Written.read? s).bind Written.sound?

end FleetLedger.Json

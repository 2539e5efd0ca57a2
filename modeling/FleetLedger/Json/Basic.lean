import FleetLedger.Number.Binary64

/-!
# JSON values

The values that documents are made of.  Numbers keep their kind: an integer and a float of the same
size are different values, and so are told apart by equality, though an order between them exists
(`Document.Order`).  The fields of an object are a list in ascending order of their names, each name
once, so two objects with the same fields are the same list.
-/

namespace FleetLedger

/-- A JSON value. -/
inductive Json where
  | null
  | bool (value : Bool)
  | int (value : Int)
  | float (value : Binary64)
  | string (value : String)
  | array (items : List Json)
  | object (fields : List (String × Json))
  deriving Inhabited

namespace Json

mutual

/-- Equality of values.  It is equality of terms but for zero: the two floating-point zeros are one
value. -/
def same : Json → Json → Bool
  | null, null => true
  | bool a, bool b => a == b
  | int a, int b => a == b
  | float a, float b => a.equal b
  | string a, string b => a == b
  | array as, array bs => sameItems as bs
  | object as, object bs => sameFields as bs
  | _, _ => false

/-- Equality of arrays, item by item. -/
def sameItems : List Json → List Json → Bool
  | [], [] => true
  | a :: as, b :: bs => same a b && sameItems as bs
  | _, _ => false

/-- Equality of objects, field by field. -/
def sameFields : List (String × Json) → List (String × Json) → Bool
  | [], [] => true
  | (k, a) :: as, (l, b) :: bs => k == l && same a b && sameFields as bs
  | _, _ => false

end

/-- The text of a string value. -/
def string? : Json → Option String
  | string s => some s
  | _ => none

/-- The least integer that is stored. -/
def leastInt : Int := -9223372036854775808

/-- The greatest integer of the signed range; counters and deltas live below it. -/
def greatestSigned : Int := 9223372036854775807

/-- The greatest integer that is stored. -/
def greatestInt : Int := 18446744073709551615

/-- An integer value within the signed range. -/
def signed? : Json → Option Int
  | int n => if leastInt ≤ n ∧ n ≤ greatestSigned then some n else none
  | _ => none

/-- A number as a float: itself, or the float nearest to an integer. -/
def float? : Json → Option Binary64
  | int n => some (Binary64.ofInt n)
  | float x => some x
  | _ => none

/-- A list of strings as an array. -/
def strings (ss : List String) : Json := array (ss.map string)

/-- A text that may be absent. -/
def ofString? : Option String → Json
  | some s => string s
  | none => null

end Json

end FleetLedger

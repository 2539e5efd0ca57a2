import FleetLedger.Json.Document

/-!
# Ordering values and documents

Only values of one kind are ordered: numbers by size, strings by code points, false before true, and
null beside null.  Two integers of the signed range are compared exactly; any other pair of numbers
is compared as floats, which can make two neighbours beyond that range equal.

Documents are sorted by a list of fields.  There a missing field counts as null and null comes first;
values of different kinds count as equal, and the next field decides.
-/

namespace FleetLedger

/-- The order of two values of one kind. -/
def Json.order? : Json → Json → Option Ordering
  | .string a, .string b => some (compare a b)
  | .bool a, .bool b => some (compare a b)
  | .null, .null => some .eq
  | a, b =>
    match a.signed?, b.signed? with
    | some m, some n => some (compare m n)
    | _, _ => do return (← a.float?).order (← b.float?)

/-- Which end of an order comes first. -/
inductive Direction where
  | ascending
  | descending
  deriving Repr, DecidableEq

/-- A field to sort by. -/
structure SortKey where
  field : String
  direction : Direction
  deriving Repr, DecidableEq

/-- Smallest values first. -/
def SortKey.up (field : String) : SortKey := ⟨field, .ascending⟩

/-- Largest values first. -/
def SortKey.down (field : String) : SortKey := ⟨field, .descending⟩

/-- The order of two field values when sorting. -/
def Json.sortOrder : Json → Json → Ordering
  | .null, .null => .eq
  | .null, _ => .lt
  | _, .null => .gt
  | a, b => (a.order? b).getD .eq

/-- The order of two documents by one field. -/
def SortKey.order (k : SortKey) (a b : Document) : Ordering :=
  let o := (a.getOrNull k.field).sortOrder (b.getOrNull k.field)
  match k.direction with
  | .ascending => o
  | .descending => o.swap

/-- The order of two documents by a list of fields: the first field that tells them apart decides. -/
def Document.order (keys : List SortKey) (a b : Document) : Ordering :=
  keys.foldr (fun k rest => (k.order a b).then rest) .eq

/-- Documents in the order of `keys`; those that no field tells apart stay as they were. -/
def Document.sort (keys : List SortKey) (docs : List Document) : List Document :=
  docs.mergeSort fun a b => Document.order keys a b != .gt

end FleetLedger

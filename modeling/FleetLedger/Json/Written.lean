import FleetLedger.Json.Document

/-!
# JSON as it was written

A text can spell things that no value has: an object may name a field twice, a number may be larger
than any float, an escape may stand for half of a surrogate pair.  `Written` keeps what was spelled,
in the order of the text, so that a reader who only needs some of the fields can pass over the rest
without judging it.  `value?` is the judgement: the value, if every part of the text has one.  Of
fields with one name the last counts.
-/

namespace FleetLedger.Json

/-- A JSON text, read but not yet judged. -/
inductive Written where
  | null
  | bool (value : Bool)
  | int (value : Int)
  | float (value : Binary64)
  /-- A number beyond the largest float. -/
  | oversized
  /-- A string; none when an escape in it stands for no character. -/
  | string (text : Option String)
  | array (items : List Written)
  | object (fields : List (Option String × Written))
  deriving Inhabited

namespace Written

mutual

/-- The value of a text, if all of its parts have one. -/
def value? : Written → Option Json
  | null => some .null
  | bool b => some (.bool b)
  | int n => some (.int n)
  | float x => some (.float x)
  | oversized => none
  | string s => s.map .string
  | array items => (valuesOf? items).map .array
  | object fields => (fieldsOf? fields).map fun kvs => .object (Table.ofList kvs)

/-- The values of all items. -/
def valuesOf? : List Written → Option (List Json)
  | [] => some []
  | w :: ws => do
    let v ← value? w
    let vs ← valuesOf? ws
    return v :: vs

/-- The names and values of all fields. -/
def fieldsOf? : List (Option String × Written) → Option (List (String × Json))
  | [] => some []
  | (name, w) :: rest => do
    let name ← name
    let v ← value? w
    let vs ← fieldsOf? rest
    return (name, v) :: vs

end

mutual

/-- How deeply arrays and objects are nested. -/
def depth : Written → Nat
  | array items => depthOfItems items + 1
  | object fields => depthOfFields fields + 1
  | _ => 0

/-- The depth of the deepest item. -/
def depthOfItems : List Written → Nat
  | [] => 0
  | w :: ws => max (depth w) (depthOfItems ws)

/-- The depth of the deepest field. -/
def depthOfFields : List (Option String × Written) → Nat
  | [] => 0
  | (_, w) :: rest => max (depth w) (depthOfFields rest)

end

/-- Texts nested deeper than this are refused. -/
def greatestDepth : Nat := 127

/-- The value of a text that is not nested too deeply. -/
def sound? (w : Written) : Option Json :=
  if w.depth ≤ greatestDepth then w.value? else none

end Written

end FleetLedger.Json

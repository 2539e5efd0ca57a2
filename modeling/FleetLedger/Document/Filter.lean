import FleetLedger.Document.Order
import FleetLedger.Pattern.Parser
import FleetLedger.Notice

/-!
# Filters

A filter is a predicate on the fields of a document.  A missing field equals null, and is never
within a bound.  Patterns apply to strings only; a pattern that cannot be read holds of nothing, and
is reported once for each time the filter is put to use, not once for each document.
-/

namespace FleetLedger

/-- A predicate on documents. -/
inductive Filter where
  | all
  | eq (field : String) (value : Json)
  /-- The field equals one of the values. -/
  | isIn (field : String) (values : List Json)
  | gte (field : String) (bound : Json)
  | lt (field : String) (bound : Json)
  | lte (field : String) (bound : Json)
  /-- The field is there, or is not there. -/
  | has (field : String) (present : Bool)
  /-- The field is a string in which the pattern is found, whatever the case of its letters. -/
  | like (field : String) (pattern : String)
  | and (filters : List Filter)
  | or (filters : List Filter)
  deriving Inhabited

namespace Filter

/-- A field within a bound: it is there, it is of the bound's kind, and its order to the bound is one
of those allowed. -/
def within (d : Document) (field : String) (bound : Json) (allowed : Ordering → Bool) : Bool :=
  match d.get? field with
  | some v => ((v.order? bound).map allowed).getD false
  | none => false

/-- A string field in which the pattern is found. -/
def found (d : Document) (field pattern : String) : Bool :=
  match Pattern.parse? pattern, (d.get? field).bind Json.string? with
  | some p, some text => p.isMatch text
  | _, _ => false

mutual

/-- The filter holds of a document. -/
def holds : Filter → Document → Bool
  | all, _ => true
  | eq f v, d => (d.getOrNull f).same v
  | isIn f vs, d => vs.any fun v => v.same (d.getOrNull f)
  | gte f b, d => within d f b (· != .lt)
  | lt f b, d => within d f b (· == .lt)
  | lte f b, d => within d f b (· != .gt)
  | has f present, d => d.contains f == present
  | like f p, d => found d f p
  | and fs, d => holdAll fs d
  | or fs, d => holdAny fs d

/-- All of the filters hold. -/
def holdAll : List Filter → Document → Bool
  | [], _ => true
  | f :: fs, d => holds f d && holdAll fs d

/-- One of the filters holds. -/
def holdAny : List Filter → Document → Bool
  | [], _ => false
  | f :: fs, d => holds f d || holdAny fs d

end

mutual

/-- The patterns of a filter that cannot be read, from left to right. -/
def unreadable : Filter → List String
  | like _ p => if (Pattern.parse? p).isNone then [p] else []
  | and fs => unreadableOf fs
  | or fs => unreadableOf fs
  | _ => []

/-- The patterns of several filters that cannot be read. -/
def unreadableOf : List Filter → List String
  | [] => []
  | f :: fs => unreadable f ++ unreadableOf fs

end

/-- What is reported when a filter is put to use. -/
def notices (f : Filter) : List Notice := f.unreadable.map .invalidPattern

mutual

/-- The fields that a filter pins to one value: equalities that are not within a disjunction. -/
def equalities : Filter → List (String × Json)
  | eq f v => [(f, v)]
  | and fs => equalitiesOf fs
  | _ => []

/-- The fields that all of several filters pin. -/
def equalitiesOf : List Filter → List (String × Json)
  | [] => []
  | f :: fs => equalities f ++ equalitiesOf fs

end

/-- The document with just the fields that a filter pins; of two values for one field the later
one. -/
def pinned (f : Filter) : Document := Table.ofList f.equalities

/-- The field is one of the given strings. -/
def oneOf (field : String) (values : List String) : Filter := isIn field (values.map .string)

/-- The field is the given string. -/
def eqString (field value : String) : Filter := eq field (.string value)

end Filter

end FleetLedger

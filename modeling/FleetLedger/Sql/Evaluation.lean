import FleetLedger.Json.Equality
import FleetLedger.Json.Parser
import FleetLedger.Sql.Expression
import FleetLedger.Text.Numeral

/-!
# What an expression says of a row

The value of an expression in a row of the table of documents, by the rules of the language.  A missing
field has no value, which is written `NULL`, and whatever is computed from no value has none either.
`AND` and `OR` may have one all the same: a part that decides the whole decides it whatever the other
part is.  `COALESCE` has that of its first argument that has one.

Only the rules are given that are wanted here.  Where one would need more, such as the order of texts
or of floats, and where the database would report an error, such as a sum that 64 bits do not hold, no
value is assumed (`none`), which is not to be mistaken for `NULL`.
-/

namespace FleetLedger.Sql

/-- A row of the table of documents; a statement may call it `d`. -/
structure DocumentRow where
  collection : String
  doc : Document

/-- A value in the database. -/
inductive Datum where
  /-- No value. -/
  | null
  | bool (truth : Bool)
  | text (value : String)
  /-- An integer of 64 bits. -/
  | int8 (value : Int)
  | jsonb (value : Json)
  /-- A list of texts. -/
  | textArray (values : List String)

namespace Datum

/-- A value that is handed over beside a statement. -/
def ofBind? : Bind → Option Datum
  | .text value => some (text value)
  | .int8 value => some (int8 value)
  | .jsonb value => some (jsonb value)
  | .textArray values => some (textArray values)

/-- The value in a column of a row. -/
def ofColumn? (row : DocumentRow) : String → Option Datum
  | "collection" => some (text row.collection)
  | "doc" => some (jsonb (.object row.doc))
  | _ => none

/-- What a name stands for: a constant or a column. -/
def ofName? (row : DocumentRow) : String → Option Datum
  | "TRUE" => some (bool true)
  | "FALSE" => some (bool false)
  | "NULL" => some null
  | "0" => some (int8 0)
  | name => ofColumn? row name

/-- Whether there is a value. -/
def isNull : Datum → Bool
  | null => true
  | _ => false

/-- The opposite of a truth; that of no value is no value. -/
def not? : Datum → Option Datum
  | null => some null
  | bool truth => some (bool !truth)
  | _ => none

/-- Reads a text as JSON. -/
def cast? : Datum → Option Datum
  | null => some null
  | text value => (Json.ofText? value).map jsonb
  | _ => none

/-- Reads a text as an integer. -/
def castInt8? : Datum → Option Datum
  | null => some null
  | text value => (Numeral.read Json.leastInt Json.greatestSigned value).toOption.map int8
  | _ => none

/-- A list of texts as what it is. -/
def castTexts? : Datum → Option Datum
  | null => some null
  | textArray values => some (textArray values)
  | _ => none

/-- A rule for two values, of which none is left of no value. -/
def strict? (rule : Datum → Datum → Option Datum) : Datum → Datum → Option Datum
  | null, _ | _, null => some null
  | a, b => rule a b

/-- Equality of texts, and of JSON values, of which numbers go by their size. -/
def equal? : Datum → Datum → Option Datum
  | text a, text b => some (bool (a == b))
  | jsonb a, jsonb b => some (bool (a.alike b))
  | _, _ => none

/-- The order of JSON integers. -/
def ordered? (allowed : Ordering → Bool) : Datum → Datum → Option Datum
  | jsonb (.int m), jsonb (.int n) => some (bool (allowed (compare m n)))
  | _, _ => none

/-- A field of an object. -/
def field? : Datum → Datum → Option Datum
  | jsonb (.object fields), text name => some (((Table.get? fields name).map jsonb).getD null)
  | _, _ => none

/-- A field of an object as a text, which null has none of. -/
def fieldText? : Datum → Datum → Option Datum
  | jsonb (.object fields), text name =>
    match Table.get? fields name with
    | none | some .null => some null
    | some (.int n) => some (text (toString n))
    | some (.string value) => some (text value)
    | some _ => none
  | _, _ => none

/-- A sum, if 64 bits hold it. -/
def sum? : Datum → Datum → Option Datum
  | int8 a, int8 b =>
    if Json.leastInt ≤ a + b ∧ a + b ≤ Json.greatestSigned then some (int8 (a + b)) else none
  | _, _ => none

/-- An object laid over another: of a field in both the last value stays, and it stays as it is. -/
def laidOver? : Datum → Datum → Option Datum
  | jsonb (.object old), jsonb (.object new) => some (jsonb (.object (Table.ofList (old ++ new))))
  | _, _ => none

/-- An object without some of its fields. -/
def without? : Datum → Datum → Option Datum
  | jsonb (.object fields), textArray names =>
    some (jsonb (.object (fields.filter fun field => field.1 ∉ names)))
  | _, _ => none

/-- The function that asks for a field of an object. -/
def exists? : Datum → Datum → Option Datum
  | jsonb (.object fields), text name => some (bool (Table.contains fields name))
  | _, _ => none

/-- The first of some values that is not null; those behind it need not be known. -/
def first? : List (Option Datum) → Option Datum
  | [] => some null
  | none :: _ => none
  | some null :: rest => first? rest
  | some d :: _ => some d

/-- A value as JSON. -/
def json : Datum → Json
  | null => .null
  | bool truth => .bool truth
  | text value => .string value
  | int8 n => .int n
  | jsonb value => value
  | textArray values => .strings values

/-- The fields of an object whose names and values take turns. -/
def fields? : List (Option Datum) → Option (List (String × Json))
  | [] => some []
  | some (text name) :: some d :: rest => (fields? rest).map ((name, d.json) :: ·)
  | _ => none

/-- Two conditions in one: a part with the truth value `decisive` decides it. -/
def junction? (decisive : Bool) : Option Datum → Option Datum → Option Datum
  | some (bool a), some (bool b) => some (bool (if a = decisive then a else b))
  | some (bool a), other => if a = decisive then some (bool a) else other.bind unless?
  | other, some (bool b) => if b = decisive then some (bool b) else other.bind unless?
  | some null, some null => some null
  | _, _ => none
where
  /-- What is left of no value. -/
  unless? : Datum → Option Datum
    | null => some null
    | _ => none

end Datum

namespace Expr

/-- The value of an operator for two operands; of a part that decides a junction the other one need
not be known. -/
def operate? (op : Operator) (left right : Option Datum) : Option Datum :=
  match op with
  | .and => Datum.junction? false left right
  | .or => Datum.junction? true left right
  | .equal => strictly Datum.equal?
  | .less => strictly (Datum.ordered? (· == .lt))
  | .atMost => strictly (Datum.ordered? (· != .gt))
  | .atLeast => strictly (Datum.ordered? (· != .lt))
  | .field => strictly Datum.field?
  | .fieldText => strictly Datum.fieldText?
  | .concat => strictly Datum.laidOver?
  | .plus => strictly Datum.sum?
  | .minus => strictly Datum.without?
  | _ => none
where
  /-- Both operands have to be known. -/
  strictly (rule : Datum → Datum → Option Datum) : Option Datum :=
    left.bind fun a => right.bind fun b => Datum.strict? rule a b

/-- The value of a function for its arguments. -/
def called? : String → List (Option Datum) → Option Datum
  | "jsonb_exists", [some a, some b] => Datum.strict? Datum.exists? a b
  | "jsonb_build_object", items =>
    (Datum.fields? items).map fun fields => .jsonb (.object (Table.ofList fields))
  | "COALESCE", items => Datum.first? items
  | _, _ => none

/-- A value is one of several: it equals the first one, or the second one, and so on. -/
def among (x : Option Datum) (items : List (Option Datum)) : Option Datum :=
  items.foldl (fun found item => Datum.junction? true found (operate? .equal x item))
    (some (.bool false))

/-- The only one of some values. -/
def single : List (Option Datum) → Option Datum
  | [d] => d
  | _ => none

/-- The values of an expression: of a list those of its items, and else one. -/
def values (row : DocumentRow) : Expr → List (Option Datum)
  | .name text => [Datum.ofName? row text]
  | .literal text => [some (.text text)]
  | .value bind => [Datum.ofBind? bind]
  | .group e => [single (values row e)]
  | .call function e => [called? function (values row e)]
  | .not e => [(single (values row e)).bind Datum.not?]
  | .infixed .comma l r => values row l ++ values row r
  | .infixed .isIn x (.group items) => [among (single (values row x)) (values row items)]
  | .infixed .is x (.name "NULL") =>
    [(single (values row x)).map fun d => .bool d.isNull]
  | .infixed .cast x (.name "jsonb") => [(single (values row x)).bind Datum.cast?]
  | .infixed .cast x (.name "bigint") => [(single (values row x)).bind Datum.castInt8?]
  | .infixed .cast x (.name "text[]") => [(single (values row x)).bind Datum.castTexts?]
  | .infixed .member (.name "d") (.name column) => [Datum.ofColumn? row column]
  | .infixed op l r => [operate? op (single (values row l)) (single (values row r))]

/-- **The value of an expression in a row.** -/
def eval (row : DocumentRow) (e : Expr) : Option Datum := single (e.values row)

end Expr

end FleetLedger.Sql

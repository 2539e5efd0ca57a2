import FleetLedger.Calendar.Timestamp
import FleetLedger.Json.Document
import FleetLedger.Number.Shortest
import FleetLedger.Text.Quoted

/-!
# Decoding documents

A stored document is read field by field.  Each field has a reader for its value; a field that may be
missing has a value to stand in.  Fields that no one asked for are passed over.

When several fields are at fault one fault is reported: of the values of a wrong kind the one whose
name comes first, as the fields of a document are in the order of their names; and only if there is
no such value, the first of the missing fields in the order in which they are asked for.  The faults
of two decoders are therefore merged by `Fault.first`, and decoders are combined like functions and
arguments, each of them looking at the whole document.
-/

namespace FleetLedger.Decoding

/-! ## Values -/

/-- Why a value is not what was asked for. -/
inductive Mismatch where
  | wrongKind (found : Json) (expected : String)
  | outOfRange (found : Int) (expected : String)
  | illegalTimestamp (millis : Int)
  | unknownVariant (found : String) (known : List String)
  deriving Inhabited

/-- A word of a data format between its quotation marks. -/
def code (s : String) : String := String.singleton (Char.ofNat 0x60) ++ s ++
  String.singleton (Char.ofNat 0x60)

/-- A value as it is named in a message. -/
def describe : Json → String
  | .null => "null"
  | .bool b => "boolean " ++ code (if b then "true" else "false")
  | .int n => "integer " ++ code (toString n)
  | .float x => "floating point " ++ code x.text
  | .string s => "string " ++ Quoted.quote s
  | .array _ => "sequence"
  | .object _ => "map"

/-- The words for a mismatch. -/
def Mismatch.message : Mismatch → String
  | wrongKind found expected => "invalid type: " ++ describe found ++ ", expected " ++ expected
  | outOfRange found expected =>
    "invalid value: integer " ++ code (toString found) ++ ", expected " ++ expected
  | illegalTimestamp millis => "value is not a legal timestamp: " ++ toString millis
  | unknownVariant found known =>
    "unknown variant " ++ code found ++ ", expected one of " ++ ", ".intercalate (known.map code)

/-- Reads a value. -/
abbrev Reader (α : Type) := Json → Except Mismatch α

/-- A text. -/
def string : Reader String
  | .string s => .ok s
  | found => .error (.wrongKind found "a string")

/-- A truth value. -/
def bool : Reader Bool
  | .bool b => .ok b
  | found => .error (.wrongKind found "a boolean")

/-- An integer between two bounds, which go by a name. -/
def integer (low high : Int) (name : String) : Reader Int
  | .int n => if low ≤ n ∧ n ≤ high then .ok n else .error (.outOfRange n name)
  | found => .error (.wrongKind found name)

/-- An integer of 32 bits. -/
def int32 : Reader Int := integer (-2147483648) 2147483647 "i32"

/-- An integer of 64 bits. -/
def int64 : Reader Int := integer Json.leastInt Json.greatestSigned "i64"

/-- An instant, as milliseconds. -/
def timestamp : Reader Timestamp
  | .int n =>
    match Timestamp.ofMillis? n with
    | some t => .ok t
    | none => .error (.illegalTimestamp n)
  | found => .error (.wrongKind found "a unix timestamp in milliseconds")

/-- A value or null. -/
def nullable {α : Type} (reader : Reader α) : Reader (Option α)
  | .null => .ok none
  | found => some <$> reader found

/-- A list; the first item at fault decides. -/
def list {α : Type} (reader : Reader α) : Reader (List α)
  | .array items => items.mapM reader
  | found => .error (.wrongKind found "a sequence")

/-! ## Fields -/

/-- Why a document is not what was asked for. -/
inductive Fault where
  | mistyped (field : String) (mismatch : Mismatch)
  | missing (field : String)
  deriving Inhabited

namespace Fault

/-- Of the faults of two decoders, asked in this order, the one that is reported. -/
def first : Fault → Fault → Fault
  | mistyped f m, mistyped g n => if g < f then mistyped g n else mistyped f m
  | missing _, mistyped g n => mistyped g n
  | f, missing _ => f

/-- The words for a fault. -/
def message : Fault → String
  | mistyped _ mismatch => mismatch.message
  | missing field => "missing field " ++ code field

end Fault

/-- Reads a document. -/
structure Decoder (α : Type) where
  run : Document → Except Fault α

namespace Decoder

instance : Functor Decoder where
  map f p := ⟨fun d => f <$> p.run d⟩

/-- Both decoders look at the whole document, and the faults of both are known. -/
def both {α β : Type} (p : Decoder (α → β)) (q : Decoder α) : Decoder β :=
  ⟨fun d =>
    match p.run d, q.run d with
    | .ok f, .ok a => .ok (f a)
    | .error e, .ok _ => .error e
    | .ok _, .error e => .error e
    | .error e, .error e' => .error (e.first e')⟩

instance : Applicative Decoder where
  pure a := ⟨fun _ => .ok a⟩
  seq p q := both p (q ())

/-- One decoder, and only if it finds no fault, another. -/
def after {α β : Type} (p : Decoder α) (q : α → Decoder β) : Decoder β :=
  ⟨fun d => (p.run d).bind fun a => (q a).run d⟩

end Decoder

/-- A field with something to say when it is missing. -/
def field {α : Type} (name : String) (absent : Except Fault α) (reader : Reader α) : Decoder α :=
  ⟨fun d =>
    match d.get? name with
    | none => absent
    | some value => (reader value).mapError (.mistyped name)⟩

/-- A field that has to be there. -/
def required {α : Type} (name : String) (reader : Reader α) : Decoder α :=
  field name (.error (.missing name)) reader

/-- A field with a value to stand in for it. -/
def withDefault {α : Type} (name : String) (value : α) (reader : Reader α) : Decoder α :=
  field name (.ok value) reader

/-- A field that may be null or missing. -/
def optional {α : Type} (name : String) (reader : Reader α) : Decoder (Option α) :=
  withDefault name none (nullable reader)

end FleetLedger.Decoding

import FleetLedger.Document.Stored
import FleetLedger.Json.Parser

/-!
# Groups of nodes

A group is a named set of node ids, to which the execution of a job can be directed.  Groups are kept
in the key-value store as texts that people write, so reading one is strict about the three fields it
needs, and passes over everything else.

A text may spell a group as an object or as the list of its three parts; the ids may be left out of
either.  The fields of an object are checked in the order of the text, and the first fault is reported;
but a text that is not proper JSON throughout is reported as just that.
-/

namespace FleetLedger

/-- A named set of nodes. -/
structure Group where
  id : String
  name : String
  nodeIds : List String
  deriving Repr, DecidableEq

namespace Group

/-- The fields of a group. -/
def toDocument (g : Group) : Document :=
  Table.ofList
    [("id", .string g.id), ("name", .string g.name), ("nids", .strings g.nodeIds)]

/-- Reads the fields of a group from a document. -/
def decoder : Decoding.Decoder Group :=
  Group.mk
    <$> Decoding.required "id" Decoding.string
    <*> Decoding.required "name" Decoding.string
    <*> Decoding.withDefault "nids" [] (Decoding.list Decoding.string)

/-! ## Texts -/

/-- Why a text is no group. -/
inductive TextFault where
  | notJson
  | mismatch (mismatch : Decoding.Mismatch)
  | missing (field : String)
  | duplicate (field : String)
  | wrongLength (length : Nat)
  | trailing

/-- The words for a fault. -/
def TextFault.message : TextFault → String
  | notJson => "invalid JSON"
  | mismatch m => m.message
  | missing field => "missing field " ++ Decoding.code field
  | duplicate field => "duplicate field " ++ Decoding.code field
  | wrongLength n =>
    "invalid length " ++ toString n ++ ", expected struct GroupDefinition with 3 elements"
  | trailing => "trailing characters"

/-- A written value as far as its kind: arrays and objects without their content. -/
def outline : Json.Written → Json
  | .bool b => .bool b
  | .int n => .int n
  | .float x => .float x
  | .string (some s) => .string s
  | .array _ => .array []
  | .object _ => .object []
  | .null | .oversized | .string none => .null

/-- A written text. -/
def textOf (w : Json.Written) : Except TextFault String :=
  (Decoding.string (outline w)).mapError .mismatch

/-- A written list of texts. -/
def textsOf : Json.Written → Except TextFault (List String)
  | .array items => items.mapM textOf
  | other => .error (.mismatch (.wrongKind (outline other) "a sequence"))

/-- The fields that were read so far. -/
structure Draft where
  id : Option String := none
  name : Option String := none
  nodeIds : Option (List String) := none

/-- Sets a field that was not set before. -/
def once {α : Type} (field : String) (before : Option α) (value : Except TextFault α) :
    Except TextFault (Option α) :=
  if before.isSome then .error (.duplicate field) else some <$> value

/-- Takes one field of an object; a name with a broken escape makes the text improper. -/
def Draft.take (d : Draft) : Option String × Json.Written → Except TextFault Draft
  | (some "id", w) => do return { d with id := ← once "id" d.id (textOf w) }
  | (some "name", w) => do return { d with name := ← once "name" d.name (textOf w) }
  | (some "nids", w) => do return { d with nodeIds := ← once "nids" d.nodeIds (textsOf w) }
  | (some _, _) => .ok d
  | (none, _) => .error .notJson

/-- The group of a draft that has all it needs. -/
def Draft.finish (d : Draft) : Except TextFault Group :=
  match d.id, d.name with
  | some id, some name => .ok ⟨id, name, d.nodeIds.getD []⟩
  | none, _ => .error (.missing "id")
  | some _, none => .error (.missing "name")

/-- Reads a group as it was written. -/
def ofWritten : Json.Written → Except TextFault Group
  | .object fields => do (← fields.foldlM Draft.take {}).finish
  | .array [] => .error (.wrongLength 0)
  | .array [id] => do
    let _ ← textOf id
    .error (.wrongLength 1)
  | .array [id, name] => do return ⟨← textOf id, ← textOf name, []⟩
  | .array (id :: name :: ids :: more) => do
    let g : Group := ⟨← textOf id, ← textOf name, ← textsOf ids⟩
    if more.isEmpty then .ok g else .error .trailing
  | other => .error (.mismatch (.wrongKind (outline other) "struct GroupDefinition"))

/-- Reads the text of a group. -/
def ofText (s : String) : Except TextFault Group :=
  match Json.Written.read? s with
  | none => .error .notJson
  | some w =>
    match ofWritten w with
    | .ok g => .ok g
    | .error fault => .error (if w.sound?.isSome then fault else .notJson)

end Group

end FleetLedger

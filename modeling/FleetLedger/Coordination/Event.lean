import FleetLedger.Document.Stored
import FleetLedger.Json.Parser
import FleetLedger.Scope

/-!
# Changes in the key-value store

A watcher of the key-value store is told of every value that is put under a key and of every key that
is deleted, and at last, if the watch breaks, why nothing more will come.

An event is also passed on as a text, in which the kind of the event stands beside its other fields.
Whoever listens to such texts takes those that are events and leaves the others alone.
-/

namespace FleetLedger

/-- A key and the value under it. -/
structure KeyValue where
  key : String
  value : String
  deriving Repr, DecidableEq

namespace KeyValue

/-- The fields of an entry. -/
def toDocument (e : KeyValue) : Document :=
  Table.ofList [("key", .string e.key), ("value", .string e.value)]

/-- Reads the fields of an entry. -/
def decoder : Decoding.Decoder KeyValue :=
  KeyValue.mk <$> Decoding.required "key" Decoding.string <*> Decoding.required "value" Decoding.string

end KeyValue

/-- What a watcher is told. -/
inductive Event where
  | put (key value : String)
  | delete (key : String)
  /-- The watch is broken; nothing more will come. -/
  | closed (reason : String)
  deriving Repr, DecidableEq

namespace Event

/-- The key that changed. -/
def key? : Event → Option String
  | put key _ | delete key => some key
  | closed _ => none

/-- The watch is broken. -/
def isClosed : Event → Bool
  | closed _ => true
  | _ => false

/-- The event concerns a key within a scope. -/
def isUnder (scope : String) (e : Event) : Bool := e.key?.any (Scope.covers scope)

/-- The fields of an event. -/
def toDocument : Event → Document
  | put key value =>
    Table.ofList [("op", .string "put"), ("key", .string key), ("value", .string value)]
  | delete key => Table.ofList [("op", .string "delete"), ("key", .string key)]
  | closed reason => Table.ofList [("op", .string "closed"), ("reason", .string reason)]

/-- The kinds of events. -/
inductive Kind where
  | put
  | delete
  | closed
  deriving Repr, DecidableEq

/-- The name of a kind. -/
def kind : Decoding.Reader Kind
  | .string "put" => .ok .put
  | .string "delete" => .ok .delete
  | .string "closed" => .ok .closed
  | .string other => .error (.unknownVariant other ["put", "delete", "closed"])
  | found => .error (.wrongKind found "variant identifier")

/-- Reads the fields of an event of a known kind. -/
def decoderOf : Kind → Decoding.Decoder Event
  | .put =>
    Event.put <$> Decoding.required "key" Decoding.string
      <*> Decoding.required "value" Decoding.string
  | .delete => Event.delete <$> Decoding.required "key" Decoding.string
  | .closed => Event.closed <$> Decoding.required "reason" Decoding.string

/-- Reads the fields of an event: its kind first, then what belongs to that kind. -/
def decoder : Decoding.Decoder Event := (Decoding.required "op" kind).after decoderOf

/-! ## Texts -/

/-- The names of the fields of a kind, in order. -/
def Kind.fields : Kind → List String
  | put => ["key", "value"]
  | delete => ["key"]
  | closed => ["reason"]

/-- Of the fields `names`, each is written at most once. -/
def writtenOnce (names : List String) (fields : List (Option String × Json.Written)) : Bool :=
  names.all fun name => (fields.filter (·.1 == some name)).length ≤ 1

/-- The event of a proper text that spells one: an object in which nothing that matters is written
twice, or the list of the kind and its fields. -/
def ofText? (s : String) : Option Event := do
  let written ← Json.Written.read? s
  match ← written.sound?, written with
  | .object d, .object fields =>
    let k ← (kind (Document.getOrNull d "op")).toOption
    if writtenOnce ("op" :: k.fields) fields then (decoderOf k).run d |>.toOption else none
  | .array (op :: values), _ =>
    let k ← (kind op).toOption
    if values.length = k.fields.length then
      (decoderOf k).run (Table.ofList (k.fields.zip values)) |>.toOption
    else none
  | _, _ => none

end Event

end FleetLedger

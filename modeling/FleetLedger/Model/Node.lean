import FleetLedger.Document.Stored

/-!
# Nodes

A node is one worker process: on which machine it runs, when it was started and stopped last, and
whether it is up.  Whether it is connected is not stored; it is found out whenever nodes are listed.
-/

namespace FleetLedger

/-- One worker process. -/
structure Node where
  /-- The identifier of its machine. -/
  id : String
  pid : Int
  ip : String
  hostname : String
  version : String := ""
  upTime : Option Timestamp := none
  downTime : Option Timestamp := none
  alive : Bool := false
  /-- Means something only while the node is alive. -/
  connected : Bool := false
  deriving DecidableEq

namespace Node

/-- A node as it appears in texts. -/
def label (n : Node) : String := "node[" ++ n.id ++ "] pid[" ++ toString n.pid ++ "]"

/-- An instant or null. -/
def stamp : Option Timestamp → Json
  | some t => .int t.millis
  | none => .null

/-- The fields of a node. -/
def toDocument (n : Node) : Document :=
  Table.ofList
    [("id", .string n.id), ("pid", .int n.pid), ("ip", .string n.ip),
      ("hostname", .string n.hostname), ("version", .string n.version), ("up_time", stamp n.upTime),
      ("down_time", stamp n.downTime), ("alive", .bool n.alive), ("connected", .bool n.connected)]

/-- Reads the fields of a node. -/
def decoder : Decoding.Decoder Node :=
  Node.mk
    <$> Decoding.required "id" Decoding.string
    <*> Decoding.required "pid" Decoding.int32
    <*> Decoding.required "ip" Decoding.string
    <*> Decoding.required "hostname" Decoding.string
    <*> Decoding.withDefault "version" "" Decoding.string
    <*> Decoding.optional "up_time" Decoding.timestamp
    <*> Decoding.optional "down_time" Decoding.timestamp
    <*> Decoding.withDefault "alive" false Decoding.bool
    <*> Decoding.withDefault "connected" false Decoding.bool

end Node

end FleetLedger

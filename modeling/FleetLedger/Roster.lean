import FleetLedger.Model.Node
import FleetLedger.Store.Interface

/-!
# The roster of nodes

The document store keeps one document for each node that was ever started and not removed since: all
that is known of the node, except whether it is connected, which only the key-value store can tell.
-/

namespace FleetLedger.Roster

/-- The collection of nodes. -/
def collection : String := "jobwatch_node"

/-- Holds of the document of one node. -/
def ofId (id : String) : Filter := .eqString "id" id

/-- What is stored of a node. -/
def entry (n : Node) : Document := n.toDocument.erase "connected"

/-- The place of a node's document in messages. -/
def place (id : String) : String := collection ++ "/" ++ id

/-- A node of which only a document is known. -/
def placeOf (d : Document) : String := place (((d.get? "id").bind Json.string?).getD "?")

variable {m : Type → Type} [Monad m]

/-- Writes all that is stored of a node. -/
def save (db : DocumentStore m) (n : Node) : ExceptT Error m Unit :=
  db.upsert collection (ofId n.id) (.set (entry n))

/-- The node with an id. -/
def find? (db : DocumentStore m) (id : String) : ExceptT Error m (Option Node) := do
  match ← db.findOne collection (ofId id) with
  | none => return none
  | some d => some <$> settled (d.decode Node.decoder (place id))

/-- All nodes in the order of their ids.  The first document at fault decides. -/
def list (db : DocumentStore m) : ExceptT Error m (List Node) := do
  let docs ← db.find collection .all { sort := [.up "id"] }
  settled (docs.mapM fun d => d.decode Node.decoder (placeOf d))

/-- Removes the node with an id; how many documents that were. -/
def remove (db : DocumentStore m) (id : String) : ExceptT Error m Nat :=
  db.deleteMany collection (ofId id)

end FleetLedger.Roster

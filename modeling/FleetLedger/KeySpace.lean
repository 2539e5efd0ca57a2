/-!
# Names in the key-value store

The workers share a key-value store.  A worker's presence is announced under the node scope, at the
key made of the scope and the id of its node; groups of nodes are defined under a scope of their own.
-/

namespace FleetLedger

/-- The scopes in the key-value store. -/
structure KeySpace where
  nodes : String := "/jobwatch/node/"
  groups : String := "/jobwatch/group/"
  deriving Repr, DecidableEq

/-- The key at which a node's presence is announced. -/
def KeySpace.nodeKey (k : KeySpace) (id : String) : String := k.nodes ++ id

end FleetLedger

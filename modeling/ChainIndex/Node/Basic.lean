/-
What the indexer asks a node of the chain for.
-/
import ChainIndex.Block.Basic
import ChainIndex.Node.Error
import ChainIndex.Task
import ChainIndex.Tx.Search

namespace ChainIndex

/-- A node as calls on a state; nothing is promised about its answers. -/
structure Node (σ : Type) where
  name : String
  status : Call σ NodeError NodeStatus
  block : (height : Int) → Call σ NodeError Block
  blockResults : (height : Int) → Call σ NodeError BlockResults
  /-- A page of the transactions of a height, from an offset on. -/
  txPage : (height : Int) → (offset limit : Nat) → Call σ NodeError SearchPage

namespace Node

/-- The node as a part of a larger state. -/
def onPart (get : τ → σ) (put : σ → τ → τ) (node : Node σ) : Node τ where
  name := node.name
  status := node.status.onPart get put
  block height := (node.block height).onPart get put
  blockResults height := (node.blockResults height).onPart get put
  txPage height offset limit := (node.txPage height offset limit).onPart get put

end Node

end ChainIndex

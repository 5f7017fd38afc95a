/-
What the indexer needs of a store: to ask what is indexed and what has failed,
to record a failure, and to write the batches of a height, each as a whole.
-/
import ChainIndex.Config.Basic
import ChainIndex.Request
import ChainIndex.Store.Error
import ChainIndex.Task
import ChainIndex.Tx.Basic

namespace ChainIndex

/-- A store as calls on a state. -/
structure IndexStore (σ : Type) where
  /-- The highest height of a chain of which anything is indexed. -/
  highest : (chainId : String) → Call σ StoreError (Option Int)
  /-- What is indexed of the known heights between two heights. -/
  status : (chainId : String) → (low high : Int) → Call σ StoreError (List BlockStatus)
  /-- The heights with a stored transaction that has a message of a type. -/
  heightsWithMessage : (chainId typeUrl : String) → (low high : Int) → Call σ StoreError (List Int)
  /-- The failures of a chain that are not resolved. -/
  unresolved : (chainId : String) → Call σ StoreError (List FailureRecord)
  recordFailure : FailureRecord → Call σ StoreError Unit
  writeTxs : TxBatch → Call σ StoreError Unit
  writeEvents : EventBatch → Call σ StoreError Unit

namespace IndexStore

/-- The store as a part of a larger state. -/
def onPart (get : τ → σ) (put : σ → τ → τ) (store : IndexStore σ) : IndexStore τ where
  highest chainId := (store.highest chainId).onPart get put
  status chainId low high := (store.status chainId low high).onPart get put
  heightsWithMessage chainId typeUrl low high :=
    (store.heightsWithMessage chainId typeUrl low high).onPart get put
  unresolved chainId := (store.unresolved chainId).onPart get put
  recordFailure r := (store.recordFailure r).onPart get put
  writeTxs b := (store.writeTxs b).onPart get put
  writeEvents b := (store.writeEvents b).onPart get put

/-- Records a failure of the indexed chain. A failure that cannot be recorded
is passed over. -/
def note (store : IndexStore σ) (chain : ChainConfig) (height : Int) (kind : DataKind)
    (reason : FailureReason) : StateM σ Unit := do
  let _ ← (store.recordFailure
    { height, chainId := chain.chainId, chainName := chain.chainName, kind, reason }).outcome

end IndexStore

end ChainIndex

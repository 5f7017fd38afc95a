/-
Records of heights that could not be indexed. A height fails for its events or
for its transactions, each with a reason, and there is at most one record for
each chain, height and kind.
-/

namespace ChainIndex

/-- What of a height is indexed, in the order in which records are listed. -/
inductive DataKind where
  | blockEvents
  | transactions
  deriving DecidableEq, Inhabited

namespace DataKind

def name : DataKind → String
  | blockEvents => "event-data"
  | transactions => "tx-data"

def ofName? (s : String) : Option DataKind :=
  [blockEvents, transactions].find? (·.name == s)

def rank : DataKind → Nat
  | blockEvents => 0
  | transactions => 1

end DataKind

inductive FailureReason where
  | missingTxs
  | blockQuery
  | unprocessableTx
  | rewardLookup
  | rewardIndex
  | missingHistory
  | eventHandling
  deriving DecidableEq, Inhabited

namespace FailureReason

def all : List FailureReason :=
  [missingTxs, blockQuery, unprocessableTx, rewardLookup, rewardIndex, missingHistory,
    eventHandling]

def name : FailureReason → String
  | missingTxs => "node_missing_block_txs"
  | blockQuery => "block_query_error"
  | unprocessableTx => "unprocessable_tx_error"
  | rewardLookup => "reward_lookup_error"
  | rewardIndex => "reward_index_error"
  | missingHistory => "node_missing_history_for_block"
  | eventHandling => "failed_block_event_handling"

def ofName? (s : String) : Option FailureReason :=
  all.find? (·.name == s)

theorem ofName?_name (r : FailureReason) : ofName? r.name = some r := by
  cases r <;> decide +kernel

end FailureReason

structure FailureRecord where
  height : Int
  chainId : String
  chainName : String
  kind : DataKind
  reason : FailureReason
  deriving DecidableEq, Inhabited

theorem DataKind.ofName?_name (k : DataKind) : DataKind.ofName? k.name = some k := by
  cases k <;> decide +kernel

end ChainIndex

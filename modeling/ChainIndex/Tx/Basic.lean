/-
Transactions in the index's own form, and the batches that are written for a
block. A batch of transactions is complete if none had to be left out.
-/
import ChainIndex.Event
import ChainIndex.Instant
import ChainIndex.Tx.Envelope

namespace ChainIndex

/-- What one message of a transaction logged. -/
structure MessageLog where
  index : Nat
  log : String
  events : List Event
  deriving DecidableEq, Inhabited

/-- The body of a message: JSON that the node decoded, or protobuf bytes. -/
inductive Payload where
  | json (value : Json)
  | raw (bytes : Bytes)
  deriving Inhabited

structure TxMessage where
  index : Nat
  typeUrl : String
  payload : Payload
  events : List Event
  deriving Inhabited

/-- A fee coin with the address that pays it. -/
structure Fee where
  amount : Decimal
  denom : String
  payer : String
  deriving DecidableEq, Inhabited

/-- Value that a message moves; an address is empty where the message names
none. -/
structure MessageData where
  messageIndex : Nat
  typeUrl : String
  sender : String
  receiver : String
  amount : Decimal
  denom : String
  deriving DecidableEq, Inhabited

/-- A transaction as it is indexed. -/
structure TxRecord where
  hash : String
  height : Int
  timestamp : Instant
  code : Nat
  codespace : String
  rawLog : String
  gasWanted : Int
  gasUsed : Int
  memo : String
  timeoutHeight : Nat
  messages : List TxMessage
  signers : List String
  authInfo : AuthInfo
  logs : List MessageLog
  fees : List Fee
  data : List MessageData
  droppedExtensions : List String
  decodedWithFallback : Bool
  deriving Inhabited

def TxRecord.succeeded (tx : TxRecord) : Bool := tx.code == 0

/-- The transactions of a block, and names for those that were left out. -/
structure TxBatch where
  chainId : String
  height : Int
  blockHash : String
  time : Instant
  proposer : String
  txs : List TxRecord
  unprocessable : List String
  deriving Inhabited

def TxBatch.isComplete (b : TxBatch) : Bool := b.unprocessable.isEmpty

/-- The family of handlers that read a piece of data out of a block event. -/
inductive EventSource where
  | coinReceived
  | validatorRewards
  | validatorCommission
  | epochRewardDistribution
  deriving DecidableEq, Inhabited

namespace EventSource

def all : List EventSource :=
  [.coinReceived, .validatorRewards, .validatorCommission, .epochRewardDistribution]

def name : EventSource → String
  | coinReceived => "coin_received"
  | validatorRewards => "validator_rewards"
  | validatorCommission => "validator_commission"
  | epochRewardDistribution => "epoch_reward_distribution"

def ofName? (s : String) : Option EventSource :=
  all.find? (·.name == s)

end EventSource

/-- An amount that an event of a block gives to an address. -/
structure EventData where
  address : String
  amount : Decimal
  denom : String
  source : EventSource
  deriving DecidableEq, Inhabited

/-- The events of a block and what was read out of them. -/
structure EventBatch where
  chainId : String
  height : Int
  blockHash : String
  time : Instant
  events : List BlockEvent
  data : List EventData
  hasEpochData : Bool
  deriving DecidableEq, Inhabited

/-- What is handed over to be written. -/
inductive WriteRequest where
  | transactions (batch : TxBatch)
  | blockEvents (batch : EventBatch)
  deriving Inhabited

def WriteRequest.height : WriteRequest → Int
  | transactions batch => batch.height
  | blockEvents batch => batch.height

end ChainIndex

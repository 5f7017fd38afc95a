/-
The store that keeps everything in memory. Each chain and height has its status
and its last batches, each chain and hash its transaction, and each chain,
height and kind at most one failure, which counts in 32 bits how often it was
recorded and says whether it is resolved. A batch that is not complete stores
what it has and leaves the height's status and failure as they are.
-/
import ChainIndex.Ascending
import ChainIndex.Store.Basic
import ChainIndex.Table

namespace ChainIndex

/-- A failure with its history; the count of attempts wraps at 2 ^ 32. -/
structure StoredFailure where
  record : FailureRecord
  attempts : UInt32
  resolved : Bool
  deriving DecidableEq, Inhabited

/-- The order of a chain's failures: by height, and the events first. -/
def StoredFailure.before (f g : StoredFailure) : Bool :=
  f.record.height < g.record.height ||
    (f.record.height == g.record.height && f.record.kind.rank ≤ g.record.kind.rank)

structure MemoryStore where
  blocks : Table (String × Int) BlockStatus
  txs : Table (String × String) TxRecord
  txBatches : Table (String × Int) TxBatch
  eventBatches : Table (String × Int) EventBatch
  failures : Table (String × Int × DataKind) StoredFailure
  txWrites : Nat
  eventWrites : Nat

namespace MemoryStore

def empty : MemoryStore := ⟨[], [], [], [], [], 0, 0⟩

/-! Asking -/

/-- The status of a chain's known heights, in ascending order. -/
def statuses (m : MemoryStore) (chainId : String) : List BlockStatus :=
  ((m.blocks.filter (·.1.1 == chainId)).map (·.2)).mergeSort fun s t => s.height ≤ t.height

def highest (m : MemoryStore) (chainId : String) : Option Int :=
  (((m.statuses chainId).filter (·.isIndexed)).map (·.height)).getLast?

def status (m : MemoryStore) (chainId : String) (low high : Int) : List BlockStatus :=
  (m.statuses chainId).filter fun s => low ≤ s.height && s.height ≤ high

def heightsWithMessage (m : MemoryStore) (chainId typeUrl : String) (low high : Int) : List Int :=
  let found := (m.txs.filter (·.1.1 == chainId)).filter fun (_, tx) =>
    low ≤ tx.height && tx.height ≤ high && tx.messages.any (·.typeUrl == typeUrl)
  ascending (found.map (·.2.height))

/-- All failures of a chain. -/
def failuresOf (m : MemoryStore) (chainId : String) : List StoredFailure :=
  ((m.failures.filter (·.1.1 == chainId)).map (·.2)).mergeSort StoredFailure.before

def unresolved (m : MemoryStore) (chainId : String) : List FailureRecord :=
  ((m.failuresOf chainId).filter (!·.resolved)).map (·.record)

/-- The heights of a chain that have a kind indexed. -/
def heightsIndexed (m : MemoryStore) (chainId : String) (kind : DataKind) : List Int :=
  ((m.statuses chainId).filter (·.has kind)).map (·.height)

def txBatch? (m : MemoryStore) (chainId : String) (height : Int) : Option TxBatch :=
  m.txBatches.get? (chainId, height)

def eventBatch? (m : MemoryStore) (chainId : String) (height : Int) : Option EventBatch :=
  m.eventBatches.get? (chainId, height)

/-! Writing -/

/-- Makes a height known, and notes the kinds that are indexed of it. -/
def mark (chainId : String) (height : Int) (transactions blockEvents : Bool) (m : MemoryStore) :
    MemoryStore :=
  { m with
    blocks := m.blocks.update (chainId, height) fun old =>
      let s := old.getD (.unindexed height)
      { s with
        transactions := s.transactions || transactions
        blockEvents := s.blockEvents || blockEvents } }

def resolve (chainId : String) (height : Int) (kind : DataKind) (m : MemoryStore) : MemoryStore :=
  match m.failures.get? (chainId, height, kind) with
  | some f =>
    { m with failures := m.failures.put (chainId, height, kind) { f with resolved := true } }
  | none => m

def recordFailure (r : FailureRecord) (m : MemoryStore) : MemoryStore :=
  { m with
    failures := m.failures.update (r.chainId, r.height, r.kind) fun old =>
      { record := r, attempts := (old.map (·.attempts)).getD 0 + 1, resolved := false } }

/-- Stores transactions in order, so that the last one of a hash stays. -/
def putTxs (chainId : String) (new : List TxRecord) (old : Table (String × String) TxRecord) :
    Table (String × String) TxRecord :=
  new.foldl (fun txs tx => Table.put (chainId, tx.hash) tx txs) old

def writeTxs (b : TxBatch) (m : MemoryStore) : MemoryStore :=
  let m := { m with
    txWrites := m.txWrites + 1
    txs := putTxs b.chainId b.txs m.txs
    txBatches := m.txBatches.put (b.chainId, b.height) b }
  let m := m.mark b.chainId b.height b.isComplete false
  if b.isComplete then m.resolve b.chainId b.height .transactions else m

def writeEvents (b : EventBatch) (m : MemoryStore) : MemoryStore :=
  let m := { m with
    eventWrites := m.eventWrites + 1
    eventBatches := m.eventBatches.put (b.chainId, b.height) b }
  (m.mark b.chainId b.height false true).resolve b.chainId b.height .blockEvents

/-- The memory as a store; its calls never fail. -/
def asStore : IndexStore MemoryStore where
  highest chainId := do return (← get).highest chainId
  status chainId low high := do return (← get).status chainId low high
  heightsWithMessage chainId typeUrl low high := do
    return (← get).heightsWithMessage chainId typeUrl low high
  unresolved chainId := do return (← get).unresolved chainId
  recordFailure r := modify (recordFailure r)
  writeTxs b := modify (writeTxs b)
  writeEvents b := modify (writeEvents b)

end MemoryStore

end ChainIndex

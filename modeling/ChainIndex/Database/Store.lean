/-
The database as an index store. The batches of a height are written in one
transaction each, whose error names the height and the kind of data.
-/
import ChainIndex.Database.Write
import ChainIndex.Store.Basic

namespace ChainIndex.Database

namespace Tables

/-- The blocks of a chain in ascending order of height. -/
def blocksOf (t : Tables) (chainId : String) : List (Int × BlockRow) :=
  ((t.blocks.filter (·.1.1 == chainId)).map fun ((_, height), row) => (height, row)).mergeSort
    fun a b => a.1 ≤ b.1

def highest (t : Tables) (chainId : String) : Option Int :=
  (((t.blocksOf chainId).filter fun (_, row) => row.txIndexed || row.eventsIndexed).map
    (·.1)).getLast?

def status (t : Tables) (chainId : String) (low high : Int) : List BlockStatus :=
  ((t.blocksOf chainId).filter fun (height, _) => low ≤ height && height ≤ high).map
    fun (height, row) => ⟨height, row.txIndexed, row.eventsIndexed⟩

def heightsWithMessage (t : Tables) (chainId typeUrl : String) (low high : Int) : List Int :=
  let found := (t.txs.filter (·.1.1 == chainId)).filter fun (_, row) =>
    low ≤ row.height && row.height ≤ high && row.messages.any (·.typeUrl == typeUrl)
  ascending (found.map (·.2.height))

/-- The order of failures: by height, and then by the text of their kind. -/
def failureBefore (a b : (Int × String) × FailedBlockRow) : Bool :=
  a.1.1 < b.1.1 || (a.1.1 == b.1.1 && a.1.2 ≤ b.1.2)

/-- A failure whose kind and reason are known. -/
def failure? (chainId : String) (f : (Int × String) × FailedBlockRow) : Option FailureRecord := do
  let kind ← DataKind.ofName? f.1.2
  let reason ← FailureReason.ofName? f.2.reason
  return { height := f.1.1, chainId, chainName := f.2.chainName, kind, reason }

def unresolved (t : Tables) (chainId : String) : List FailureRecord :=
  let rows := (t.failures.filter fun (key, row) => key.1 == chainId && !row.resolved).map
    fun ((_, place), row) => (place, row)
  (rows.mergeSort failureBefore).filterMap (failure? chainId)

end Tables

namespace Server

variable {φ : Type}

/-- A session whose errors are those of a store. -/
def asking (session : Session φ α) : Call (Database φ) StoreError α :=
  ExceptT.mk (Except.mapError StoreError.database <$> session.run)

/-- The write of a height's batch. -/
def writing (s : Server φ) (chainId : String) (height : Int) (kind : DataKind)
    (session : Session φ Unit) : Call (Database φ) StoreError Unit :=
  ExceptT.mk (Except.mapError (fun e => .blockWrite chainId height kind (.database e)) <$>
    (s.transaction session).run)

/-- The recording of a failure. -/
def recording (r : FailureRecord) (session : Session φ Unit) : Call (Database φ) StoreError Unit :=
  ExceptT.mk (Except.mapError (.failureUpsert r.chainId r.height r.kind) <$> session.run)

def asStore (s : Server φ) : IndexStore (Database φ) where
  highest chainId := asking (s.read .blocks (·.highest chainId))
  status chainId low high := asking (s.read .blocks (·.status chainId low high))
  heightsWithMessage chainId typeUrl low high :=
    asking (s.read .txes (·.heightsWithMessage chainId typeUrl low high))
  unresolved chainId := asking (s.read .failedBlocks (·.unresolved chainId))
  recordFailure r := recording r (s.recordFailure r)
  writeTxs b := s.writing b.chainId b.height .transactions (s.writeTxs b)
  writeEvents b := s.writing b.chainId b.height .blockEvents (s.writeEvents b)

end Server

end ChainIndex.Database

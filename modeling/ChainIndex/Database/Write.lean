/-
What is written of a height. Rows that are there already are changed in place:
a block keeps the flags of the other kind of data, and its proposer where none is
given; a transaction gets the new rows that belong to it in place of the old
ones; a denomination stays as it is.
-/
import ChainIndex.Ascending
import ChainIndex.Database.Basic

namespace ChainIndex.Database

/-- A height as a batch knows it; a batch of events does not know the proposer. -/
structure BlockHeader where
  chainId : String
  height : Int
  hash : String
  time : Instant
  proposer : Option String

/-- The row of a block, of which a kind of data may now be indexed. -/
def BlockRow.written (b : BlockHeader) (indexed : Option DataKind) (old : Option BlockRow) :
    BlockRow :=
  { hash := b.hash
    time := storedTime b.time
    proposer := b.proposer.getD ((old.map (·.proposer)).getD "")
    txIndexed := (old.map (·.txIndexed)).getD false || indexed == some .transactions
    eventsIndexed := (old.map (·.eventsIndexed)).getD false || indexed == some .blockEvents }

/-- The row of a transaction, with the rows that already belong to it. -/
def TxRow.written (row : TxRow) (old : Option TxRow) : TxRow :=
  match old with
  | some old => { row with messages := old.messages, fees := old.fees, data := old.data }
  | none => row

/-- A failure that is recorded once more. -/
def FailedBlockRow.written (r : FailureRecord) (old : Option FailedBlockRow) : FailedBlockRow :=
  { chainName := r.chainName
    reason := r.reason.name
    attempts := (old.map (·.attempts)).getD 0 + 1
    resolved := false }

/-- A denomination of which only the base is known. -/
def DenomRow.unnamed : DenomRow := ⟨unknownName, unknownName, []⟩

namespace Tables

/-- Changes the row of a transaction. -/
def onTx (key : String × String) (f : TxRow → TxRow) (t : Tables) : Tables :=
  match t.txs.get? key with
  | some row => { t with txs := t.txs.put key (f row) }
  | none => t

def addDenoms (bases : List String) (t : Tables) : Tables :=
  { t with denoms := bases.foldl (fun ds base => Table.update base (·.getD .unnamed) ds) t.denoms }

def setEvents (key : String × Int) (rows : List BlockEventRow) (t : Tables) : Tables :=
  { t with blockEvents := t.blockEvents.put key rows }

def setEventData (key : String × Int) (rows : List EventDataRow) (t : Tables) : Tables :=
  { t with eventData := t.eventData.put key rows }

/-- The failure of a key that is not resolved. -/
def openFailure? (t : Tables) (key : String × Int × String) : Option FailedBlockRow :=
  (t.failures.get? key).filter (!·.resolved)

def resolveFailure (key : String × Int × String) (t : Tables) : Tables :=
  match t.openFailure? key with
  | some row => { t with failures := t.failures.put key { row with resolved := true } }
  | none => t

end Tables

namespace Server

variable {φ : Type}

def upsertBlock (s : Server φ) (b : BlockHeader) (indexed : Option DataKind) : Session φ Unit :=
  s.insert .blocks (checkTexts [b.chainId, b.hash, b.proposer.getD ""]) fun _ t =>
    { t with blocks := t.blocks.update (b.chainId, b.height) (BlockRow.written b indexed) }

/-- Inserts the denominations that are not there yet. -/
def backfillDenoms (s : Server φ) (bases : List String) : Session φ Unit :=
  s.insertMany .denoms (ascending bases)
    (fun base => do
      checkTexts [base]
      return base)
    Tables.addDenoms

def upsertTx (s : Server φ) (chainId : String) (tx : TxRecord) : Session φ Unit := do
  let key := (chainId, tx.hash)
  let row : Except RowError TxRow := do
    checkTexts [chainId]
    TxRow.ofRecord tx
  s.insert .txes row fun row t => { t with txs := t.txs.update key row.written }
  s.write .delete .messages (Tables.onTx key fun row => { row with messages := [] })
  s.write .delete .fees (Tables.onTx key fun row => { row with fees := [] })
  s.write .delete .messageData (Tables.onTx key fun row => { row with data := [] })
  s.insertMany .messages tx.messages MessageRow.ofMessage fun rows =>
    Tables.onTx key fun row => { row with messages := row.messages ++ rows }
  s.insertMany .fees tx.fees FeeRow.ofFee fun rows =>
    Tables.onTx key fun row => { row with fees := row.fees ++ rows }
  s.insertMany .messageData tx.data MessageDataRow.ofData fun rows =>
    Tables.onTx key fun row => { row with data := row.data ++ rows }

/-- Puts the events of a batch in place of those of its height. -/
def replaceEvents (s : Server φ) (b : EventBatch) : Session φ Unit := do
  let key := (b.chainId, b.height)
  s.write .delete .blockEvents (Tables.setEvents key [])
  s.write .delete .eventData (Tables.setEventData key [])
  s.insertMany .blockEvents b.events
    (fun e => do
      checkTexts [b.chainId]
      BlockEventRow.ofEvent e)
    (Tables.setEvents key)
  s.insertMany .eventData b.data
    (fun d => do
      checkTexts [b.chainId]
      EventDataRow.ofData d)
    (Tables.setEventData key)

/-- Resolves a failure, and says how many there were. -/
def resolve (s : Server φ) (chainId : String) (height : Int) (kind : DataKind) : Session φ Nat := do
  let key := (chainId, height, kind.name)
  s.query .update .failedBlocks
  let found := (← get).tables.openFailure? key
  modify fun db => { db with tables := db.tables.resolveFailure key }
  return if found.isSome then 1 else 0

def recordFailure (s : Server φ) (r : FailureRecord) : Session φ Unit :=
  s.insert .failedBlocks (checkTexts [r.chainId, r.chainName]) fun _ t =>
    { t with
      failures := t.failures.update (r.chainId, r.height, r.kind.name) (FailedBlockRow.written r) }

/-- The statements that write a batch of transactions. -/
def writeTxs (s : Server φ) (b : TxBatch) : Session φ Unit := do
  let header : BlockHeader :=
    { chainId := b.chainId, height := b.height, hash := b.blockHash, time := b.time,
      proposer := some b.proposer }
  s.upsertBlock header (if b.isComplete then some .transactions else none)
  s.backfillDenoms (b.txs.flatMap fun tx => tx.fees.map (·.denom))
  b.txs.forM (s.upsertTx b.chainId)
  if b.isComplete then
    let _ ← s.resolve b.chainId b.height .transactions

/-- The statements that write a batch of events. -/
def writeEvents (s : Server φ) (b : EventBatch) : Session φ Unit := do
  let header : BlockHeader :=
    { chainId := b.chainId, height := b.height, hash := b.blockHash, time := b.time,
      proposer := none }
  s.upsertBlock header (some .blockEvents)
  s.backfillDenoms (b.data.map (·.denom))
  s.replaceEvents b
  let _ ← s.resolve b.chainId b.height .blockEvents

end Server

end ChainIndex.Database

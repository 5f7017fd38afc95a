/-
A world to try the indexer out in: a node that answers from a script, a store in
memory that can be told to fail, a queue whose reader takes everything whenever
the other side has to wait, and a clock that only moves while something waits.
All calls are logged.
-/
import ChainIndex.Enqueue.Queue
import ChainIndex.Node.Client
import ChainIndex.Record.Store

namespace ChainIndex

/-- What a rehearsal has seen so far; the logs have their last line first. -/
structure World where
  scriptCounts : Table String Nat
  storeCounts : Table String Nat
  nodeLog : List String
  storeLog : List String
  elapsed : Nat
  memory : MemoryStore
  queued : List Request
  pushed : List Request
  received : List Request
  /-- The number of requests after which the reader goes away. -/
  readerLimit : Option Nat
  readerGone : Bool

namespace World

def start (memory : MemoryStore) : World :=
  { scriptCounts := [], storeCounts := [], nodeLog := [], storeLog := [], elapsed := 0, memory,
    queued := [], pushed := [], received := [], readerLimit := none, readerGone := false }

/-- The world with empty logs, a new queue and the clock at zero. -/
def again (readerLimit : Option Nat) (w : World) : World :=
  { w with nodeLog := [], storeLog := [], elapsed := 0, queued := [], pushed := [], received := [],
           readerLimit, readerGone := false }

/-- The reader takes what is queued, and goes away at its limit. -/
def read (w : World) : World :=
  match w.readerLimit with
  | none => { w with queued := [], received := w.queued ++ w.received }
  | some limit =>
    let taken := w.queued.reverse.take (limit - w.received.length)
    let received := taken.reverse ++ w.received
    { w with queued := [], received, readerGone := limit ≤ received.length }

/-- Waiting lets the reader read. -/
def pause (span : Span) : Unending World Unit :=
  modify fun w => { w.read with elapsed := w.elapsed + span.waitMillis }

def push (capacity : Nat) (r : Request) : Unending World Bool := do
  if capacity ≤ (← get).queued.length then modify read
  let w ← get
  if w.readerGone then return false
  else do
    set { w with queued := r :: w.queued, pushed := r :: w.pushed }
    return true

def queue (capacity : Nat) : RequestQueue World where
  capacity
  push := push capacity
  waiting := do return (← get).queued.length
  closed := do return (← get).readerGone

/-! The failing store -/

/-- How often calls of a table with a key are to fail: as is said for the key,
or for all keys. -/
def failTimes (faults : Json) (table key : String) : Nat :=
  let row := faults.member table
  match row.get? key with
  | some _ => row.natAt key
  | none => row.natAt "*"

/-- A call of the store, unless it is to fail. -/
def storeCall (faults : Json) (table key : String) (call : Call MemoryStore StoreError α) :
    Call World StoreError α := do
  let name := table ++ " " ++ key
  let w ← get
  let before := (w.storeCounts.get? name).getD 0
  set { w with storeCounts := w.storeCounts.put name (before + 1), storeLog := name :: w.storeLog }
  if before < failTimes faults table key then
    throw (.database ("Custom Error: " ++ name ++ " down"))
  else call.onPart (·.memory) fun memory w => { w with memory }

def store (faults : Json) : IndexStore World :=
  let m := MemoryStore.asStore
  { highest := fun chainId => storeCall faults "highest" chainId (m.highest chainId)
    status := fun chainId low high =>
      storeCall faults "status" s!"{low}-{high}" (m.status chainId low high)
    heightsWithMessage := fun chainId typeUrl low high =>
      storeCall faults "heights" typeUrl (m.heightsWithMessage chainId typeUrl low high)
    unresolved := fun chainId => storeCall faults "unresolved" chainId (m.unresolved chainId)
    recordFailure := fun r => storeCall faults "failed" (toString r.height) (m.recordFailure r)
    writeTxs := fun b => storeCall faults "txs" (toString b.height) (m.writeTxs b)
    writeEvents := fun b => storeCall faults "events" (toString b.height) (m.writeEvents b) }

end World

end ChainIndex

/-
Writing batches to the store. Requests are collected and written in the order
in which they came, when enough of them are there, when the timer ticks and when
no more will come; each is tried a number of times. Transactions that cannot be
written end the writer; events that cannot be written are noted as a failure of
their height.
-/
import ChainIndex.Pipeline.Error
import ChainIndex.Store.Basic

namespace ChainIndex

structure WriterSummary where
  txBatches : Nat
  txs : Nat
  eventBatches : Nat
  failedEventBatches : Nat
  deriving DecidableEq, Inhabited

def WriterSummary.zero : WriterSummary := ⟨0, 0, 0, 0⟩

/-- What writing depends on. -/
structure Writer (σ : Type) where
  store : IndexStore σ
  chain : ChainConfig
  batchSize : Nat
  maxRetries : Nat
  retryDelay : Span
  pause : Span → Unending σ Unit

/-- The requests that wait to be written, and what was written so far. -/
structure WriterState where
  batch : List WriteRequest
  summary : WriterSummary
  deriving Inhabited

def WriterState.start : WriterState := ⟨[], .zero⟩

namespace Writer

variable {σ : Type}

/-- The delay between two attempts to write a request. -/
def defaultRetryDelay : Span := .ofMillis 100

def batchLimit (w : Writer σ) : Nat := max 1 w.batchSize

/-- Calls once and then, after each failure but the last, up to `more` times
again. -/
def attempt (w : Writer σ) (call : Call σ StoreError Unit) : (more : Nat) → Task σ StoreError Unit
  | 0 => Task.ofCall id call
  | more + 1 => do
    match ← Task.ofState call.outcome with
    | .ok () => return ()
    | .error _ => do
      Task.ofUnending (w.pause w.retryDelay)
      attempt w call more

/-- Calls until the first success, at most as often as is allowed. -/
def withRetries (w : Writer σ) (call : Call σ StoreError Unit) : Task σ StoreError Unit :=
  w.attempt call (max 1 w.maxRetries - 1)

/-- The reason that is noted for events that could not be written. -/
def eventFailure (b : EventBatch) : FailureReason :=
  if b.hasEpochData then .rewardIndex else .eventHandling

def txFailure (height : Int) (e : StoreError) : PipelineError :=
  .writer ("transactions at height " ++ toString height ++ ": " ++ e.message)

/-- Writes one request. -/
def write (w : Writer σ) (total : WriterSummary) : WriteRequest → Task σ PipelineError WriterSummary
  | .transactions b => do
    Task.ofTask (txFailure b.height) (w.withRetries (w.store.writeTxs b))
    return { total with txBatches := total.txBatches + 1, txs := total.txs + b.txs.length }
  | .blockEvents b => do
    match ← Task.ofUnending (w.withRetries (w.store.writeEvents b)).outcome with
    | .ok () => return { total with eventBatches := total.eventBatches + 1 }
    | .error _ => do
      Task.ofState (w.store.note w.chain b.height .blockEvents (eventFailure b))
      return { total with failedEventBatches := total.failedEventBatches + 1 }

/-- Writes everything that waits. -/
def flush (w : Writer σ) (s : WriterState) : Task σ PipelineError WriterState := do
  let summary ← s.batch.foldlM w.write s.summary
  return { batch := [], summary }

/-- Takes a request, and writes once there are enough of them. -/
def receive (w : Writer σ) (r : WriteRequest) (s : WriterState) :
    Task σ PipelineError WriterState :=
  let s := { s with batch := s.batch ++ [r] }
  if s.batch.length < w.batchLimit then return s else w.flush s

/-- Writes all requests of a queue to which no more are added. -/
def run (w : Writer σ) (rs : List WriteRequest) : Task σ PipelineError WriterSummary := do
  let s ← rs.foldlM (fun s r => w.receive r s) .start
  return (← w.flush s).summary

end Writer

end ChainIndex

/-
Deciding which heights are indexed. Failed heights are attempted again; then one
strategy gives the heights of the run: those with a type of message, those
listed in a file, or all heights up to the tip of the chain. Following the tip
goes through windows of heights and asks, of each height, for what the store
does not have yet; windows are consecutive, so no height is visited twice. No
strategy pushes a height behind the configured end.
-/
import ChainIndex.Ascending
import ChainIndex.Enqueue.HeightList
import ChainIndex.Enqueue.Queue
import ChainIndex.Node.Client
import ChainIndex.Store.Basic

namespace ChainIndex

/-- How the heights of a run are found. -/
inductive Strategy where
  | failedBlocks
  | messageType (typeUrl : String)
  | blockFile (path : String)
  | tipFollowing (inFlight : List Request)
  deriving DecidableEq

namespace Strategy

def name : Strategy → String
  | failedBlocks => "failed-blocks"
  | messageType _ => "message-type"
  | blockFile _ => "block-file"
  | tipFollowing _ => "tip-following"

/-- The main strategy of a configuration. Following the tip leaves out what was
already pushed. -/
def select (c : IndexerConfig) (inFlight : List Request) : Strategy :=
  if !c.reindexMessageType.isEmpty then .messageType c.reindexMessageType
  else if !c.blockInputFile.isEmpty then .blockFile c.blockInputFile
  else .tipFollowing inFlight

end Strategy

/-- One request for each height that has failed for a configured kind. -/
def retryRequests (c : IndexerConfig) (records : List FailureRecord) : List Request :=
  let failed (height : Int) (kind : DataKind) : Bool :=
    records.any fun r => r.height == height && r.kind == kind
  let requests := (ascending (records.map (·.height))).map fun height =>
    { height
      blockEvents := c.indexBlockEvents && failed height .blockEvents
      transactions := c.indexTransactions && failed height .transactions : Request }
  requests.filter (!·.isEmpty)

/-- What is missing of a height and was not pushed before. -/
def missingRequest (c : IndexerConfig) (inFlight : List Request) (statuses : List BlockStatus)
    (height : Int) : Request :=
  let wanted := c.fullRequest height
  let wanted :=
    if c.reindex then wanted
    else
      match statuses.reverse.find? (·.height == height) with
      | some s => wanted.without ⟨height, s.blockEvents, s.transactions⟩
      | none => wanted
  match inFlight.reverse.find? (·.height == height) with
  | some pending => wanted.without pending
  | none => wanted

/-- The heights from one to another, both included. -/
def heightRange (low high : Int) : List Int :=
  (List.range (high + 1 - low).toNat).map fun (i : Nat) => low + (i : Int)

/-- What enqueuing works with. -/
structure Enqueuer (σ : Type) where
  config : Config
  client : Client σ
  store : IndexStore σ
  queue : RequestQueue σ
  fileText : (path : String) → Option String

namespace Enqueuer

variable {σ : Type}

def chainId (q : Enqueuer σ) : String := q.config.chain.chainId

def pause (q : Enqueuer σ) (span : Span) : Task σ EnqueueError Unit :=
  Task.ofUnending (q.client.pause span)

/-- Waits the configured time between rounds. -/
def throttle (q : Enqueuer σ) : Task σ EnqueueError Unit :=
  if q.config.indexer.throttle.isZero then return ()
  else q.pause q.config.indexer.throttle

def push (q : Enqueuer σ) (r : Request) : Task σ EnqueueError Unit := do
  if ← Task.ofUnending (q.queue.push r) then return ()
  else throw .closed

/-- Pushes the requests up to the configured end, and waits after each. -/
def pushListed (q : Enqueuer σ) : List Request → Task σ EnqueueError (List Request)
  | [] => return []
  | r :: rest =>
    if q.config.indexer.pastEnd r.height then return []
    else do
      q.push r
      q.throttle
      return r :: (← pushListed q rest)

/-- Waits until the queue has room for more, in at most `rounds` rounds. -/
def waitForRefill (q : Enqueuer σ) : (rounds : Nat) → Task σ EnqueueError Unit
  | 0 => Task.ofUnending Unending.never
  | rounds + 1 => do
    if (← Task.ofState q.queue.waiting) ≤ refillThreshold q.queue.capacity then return ()
    else if ← Task.ofState q.queue.closed then throw .closed
    else do
      q.pause refillPoll
      waitForRefill q rounds

/-- Waits until the node has caught up with the chain, in at most `rounds`
rounds. -/
def waitForChain (q : Enqueuer σ) (delay : Span) : (rounds : Nat) → Task σ EnqueueError Unit
  | 0 => Task.ofUnending Unending.never
  | rounds + 1 => do
    let status ← Task.ofTask .node q.client.status
    if status.catchingUp then do
      q.pause delay
      waitForChain q delay rounds
    else return ()

/-! Listed heights -/

def runFailedBlocks (q : Enqueuer σ) : Task σ EnqueueError (List Request) := do
  let records ← Task.ofCall .store (q.store.unresolved q.chainId)
  q.pushListed (retryRequests q.config.indexer records)

/-- The configured end, or else the highest indexed height. -/
def lastKnown (q : Enqueuer σ) : Task σ EnqueueError (Option Int) :=
  if q.config.indexer.endBlock = -1 then Task.ofCall .store (q.store.highest q.chainId)
  else return some q.config.indexer.endBlock

def runMessageType (q : Enqueuer σ) (typeUrl : String) : Task σ EnqueueError (List Request) := do
  let c := q.config.indexer
  match ← q.lastKnown with
  | some last => do
    let heights ← Task.ofCall .store (q.store.heightsWithMessage q.chainId typeUrl c.start last)
    q.pushListed (heights.map c.fullRequest)
  | none => return []

def runBlockFile (q : Enqueuer σ) (path : String) : Task σ EnqueueError (List Request) := do
  match q.fileText path with
  | none => throw (.inputFile path)
  | some content =>
    match HeightList.parse content with
    | .error e => throw e
    | .ok heights => do
      let status ← Task.ofTask .node q.client.status
      let served := heights.filter fun h => status.earliest ≤ h && h ≤ status.latest
      q.pushListed (served.map q.config.indexer.fullRequest)

/-! Following the tip -/

/-- The shortest time between two looks at the tip. -/
def leastPoll : Span := .ofSeconds 1

/-- The last height of the window that starts at a height. -/
def windowEnd (c : IndexerConfig) (capacity : Nat) (current latest : Int) : Int :=
  let last := min latest (current + capacity - 1)
  if c.endBlock = -1 then last else min last c.endBlock

/-- Pushes requests one after another. -/
def pushAll (q : Enqueuer σ) : List Request → Task σ EnqueueError Unit
  | [] => return ()
  | r :: rest => do
    q.push r
    pushAll q rest

/-- The requests of a window. -/
def windowRequests (q : Enqueuer σ) (inFlight : List Request) (low high : Int) :
    Task σ EnqueueError (List Request) := do
  let statuses ← Task.ofCall .store (q.store.status q.chainId low high)
  let requests := (heightRange low high).map (missingRequest q.config.indexer inFlight statuses)
  return requests.filter (!·.isEmpty)

/-- Goes through the heights from `current` on, in at most `rounds` rounds. -/
def scan (q : Enqueuer σ) (inFlight : List Request) :
    (rounds : Nat) → (current : Int) → Task σ EnqueueError (List Request)
  | 0, _ => Task.ofUnending Unending.never
  | rounds + 1, current =>
    let c := q.config.indexer
    if c.pastEnd current then return []
    else do
      let latest ← Task.ofTask .node q.client.latestHeight
      if latest < current then
        if c.exitWhenCaughtUp then return []
        else do
          q.pause (c.throttle.max leastPoll)
          scan q inFlight rounds current
      else do
        let last := windowEnd c q.queue.capacity current latest
        let requests ← q.windowRequests inFlight current last
        q.pushAll requests
        q.waitForRefill q.client.patience
        q.throttle
        return requests ++ (← scan q inFlight rounds (last + 1))

/-! Runs -/

/-- Pushes the heights of a strategy, and gives what was pushed. -/
def run (q : Enqueuer σ) : Strategy → Task σ EnqueueError (List Request)
  | .failedBlocks => q.runFailedBlocks
  | .messageType typeUrl => q.runMessageType typeUrl
  | .blockFile path => q.runBlockFile path
  | .tipFollowing inFlight => q.scan inFlight q.client.patience q.config.indexer.start

/-- Waits for the chain if that is configured. -/
def awaitChain (q : Enqueuer σ) : Task σ EnqueueError Unit :=
  let c := q.config.indexer
  if c.waitForChain then q.waitForChain (.ofSeconds c.waitForChainDelay) q.client.patience
  else return ()

/-- Pushes the failed heights if they are to be attempted again. -/
def reattempt (q : Enqueuer σ) : Task σ EnqueueError (List Request) :=
  if q.config.indexer.reattemptFailedBlocks then q.run .failedBlocks else return []

/-- Pushes the heights of a whole run: the failed ones and then those of the main
strategy. -/
def runAll (q : Enqueuer σ) : Task σ EnqueueError (List Request) := do
  q.awaitChain
  let again ← q.reattempt
  let main ← q.run (Strategy.select q.config.indexer again)
  return again ++ main

end Enqueuer

end ChainIndex

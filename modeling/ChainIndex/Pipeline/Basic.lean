/-
A run of the indexer. Requests go through bounded queues from the enqueuer to
workers that fetch, from them to the processor, and from it to the writer, and
all of these take their turns in any order. An `Action` is one turn of one of
them, with at most one call on the world; a turn for which nothing is there, or
for which there is no room, does nothing. The enqueuer's turns are its own calls:
a `schedule` says which actions come before each of them, and where the schedule
ends, everything that waits is brought to its end whenever the enqueuer has to
wait. The writer's error ends the run and is its result, whatever else has
happened.
-/
import ChainIndex.Enqueue.Strategy
import ChainIndex.Fifo
import ChainIndex.Pipeline.Error
import ChainIndex.Process
import ChainIndex.Writer

namespace ChainIndex

/-- A turn of a worker, of the processor or of the writer. -/
inductive Action where
  /-- An idle worker takes the next request. -/
  | take
  /-- A worker goes on fetching what it was asked for. -/
  | fetch (worker : Nat)
  /-- A worker hands over what it fetched. -/
  | deliver (worker : Nat)
  /-- The processor takes what was handed over next. -/
  | process
  /-- The processor notes a failure. -/
  | note
  /-- The processor hands over a batch. -/
  | send
  /-- The writer takes the next batch. -/
  | receive
  /-- The writer's timer ticks. -/
  | tick
  /-- The writer goes on writing. -/
  | write
  deriving DecidableEq

/-- What a worker has in hand: what is left of fetching, or what it fetched. -/
inductive WorkerLoad (σ : Type) where
  | asked (r : Request) (rest : Unending σ (Option FetchedBlock))
  | holds (d : FetchedBlock)

/-- What the writer is at: it waits for more, or it writes. -/
inductive WriterLoad (σ : Type) where
  | waits (s : WriterState)
  | writes (rest : Unending σ (Except PipelineError WriterState))

/-- Everything that is under way in a run, and the world around it. `pushed` is
all that was pushed so far, and `reports` are the failures of a height that the
processor has not noted yet. -/
structure RunState (σ : Type) where
  world : σ
  pushed : List Request
  requests : Fifo Request
  loads : List (WorkerLoad σ)
  fetched : List FetchedBlock
  reports : List (Int × DataKind × FailureReason)
  outbox : List WriteRequest
  batches : List WriteRequest
  writer : WriterLoad σ
  failure : Option PipelineError
  schedule : List (List Action)

/-- What a run works with; all of it acts on the world. -/
structure Pipeline (σ : Type) where
  config : Config
  client : Client σ
  store : IndexStore σ
  processor : Processor
  fileText : (path : String) → Option String

/-- What a run has done. -/
structure RunSummary where
  enqueued : Nat
  written : WriterSummary
  deriving DecidableEq

namespace RunState

variable {σ : Type}

/-- A run before its first turn. -/
def start (world : σ) (schedule : List (List Action)) : RunState σ :=
  { world, pushed := [], requests := .empty, loads := [], fetched := [], reports := [],
    outbox := [], batches := [], writer := .waits .start, failure := none, schedule }

/-- The summary of a writer that has nothing left to write. -/
def written? (s : RunState σ) : Option WriterSummary :=
  match s.writer with
  | .waits ⟨[], summary⟩ => some summary
  | _ => none

/-- The turn that the last stage with something to do takes next. -/
def nextAction? (s : RunState σ) : Option Action :=
  match s.writer, s.batches, s.reports, s.outbox, s.fetched, s.loads with
  | .writes _, _, _, _, _, _ => some .write
  | _, _ :: _, _, _, _, _ => some .receive
  | _, _, _ :: _, _, _, _ => some .note
  | _, _, _, _ :: _, _, _ => some .send
  | _, _, _, _, _ :: _, _ => some .process
  | _, _, _, _, _, .asked _ _ :: _ => some (.fetch 0)
  | _, _, _, _, _, .holds _ :: _ => some (.deliver 0)
  | _, _, _, _, _, [] => if s.requests.size = 0 then none else some .take

end RunState

namespace Pipeline

variable {σ : Type}

/-- How many requests may wait to be fetched. -/
def requestCapacity : Nat := 10000

def fetcher (p : Pipeline σ) : Fetcher σ :=
  { client := p.client, store := p.store, config := p.config }

def writer (p : Pipeline σ) : Writer σ :=
  { store := p.store, chain := p.config.chain, batchSize := p.config.indexer.writerBatchSize,
    maxRetries := p.config.indexer.writerMaxRetries, retryDelay := Writer.defaultRetryDelay,
    pause := p.client.pause }

/-! Turns -/

def take (p : Pipeline σ) (s : RunState σ) : RunState σ :=
  if s.loads.length < p.config.indexer.workers then
    match s.requests.pop? with
    | some (r, requests) =>
      { s with requests, loads := s.loads ++ [.asked r (p.fetcher.fetch r)] }
    | none => s
  else s

/-- A worker with nothing to pass on is idle again. -/
def fetch (worker : Nat) (s : RunState σ) : RunState σ :=
  match s.loads[worker]? with
  | some (.asked r (.call rest effect)) =>
    { s with
      world := effect s.world
      loads := s.loads.set worker (.asked r (rest s.world)) }
  | some (.asked _ (.done (some d))) => { s with loads := s.loads.set worker (.holds d) }
  | some (.asked _ (.done none)) => { s with loads := s.loads.eraseIdx worker }
  | _ => s

def deliver (p : Pipeline σ) (worker : Nat) (s : RunState σ) : RunState σ :=
  match s.loads[worker]? with
  | some (.holds d) =>
    if s.fetched.length < p.config.indexer.stageCapacity then
      { s with loads := s.loads.eraseIdx worker, fetched := s.fetched ++ [d] }
    else s
  | _ => s

/-- The processor takes a height once it is through with the one before. -/
def process (p : Pipeline σ) (s : RunState σ) : RunState σ :=
  match s.reports, s.outbox, s.fetched with
  | [], [], d :: fetched =>
    let outcome := p.processor.outcome d
    { s with
      fetched
      reports := outcome.failures.map fun (kind, reason) => (d.block.height, kind, reason)
      outbox := outcome.requests }
  | _, _, _ => s

def note (p : Pipeline σ) (s : RunState σ) : RunState σ :=
  match s.reports with
  | (height, kind, reason) :: reports =>
    { s with
      world := ((p.store.note p.processor.config.chain height kind reason).run s.world).2
      reports }
  | [] => s

/-- The failures of a height are noted before its batches are handed over. -/
def send (p : Pipeline σ) (s : RunState σ) : RunState σ :=
  match s.reports, s.outbox with
  | [], r :: outbox =>
    if s.batches.length < p.config.indexer.stageCapacity then
      { s with outbox, batches := s.batches ++ [r] }
    else s
  | _, _ => s

def receive (p : Pipeline σ) (s : RunState σ) : RunState σ :=
  match s.writer, s.batches with
  | .waits w, r :: batches => { s with batches, writer := .writes (p.writer.receive r w).outcome }
  | _, _ => s

def tick (p : Pipeline σ) (s : RunState σ) : RunState σ :=
  match s.writer with
  | .waits w => { s with writer := .writes (p.writer.flush w).outcome }
  | .writes _ => s

/-- The writer's error stays in the state. -/
def write (s : RunState σ) : RunState σ :=
  match s.writer with
  | .writes (.call rest effect) =>
    { s with world := effect s.world, writer := .writes (rest s.world) }
  | .writes (.done (.ok w)) => { s with writer := .waits w }
  | .writes (.done (.error e)) => { s with failure := some e }
  | _ => s

/-- One turn. Nothing happens any more once the writer has failed. -/
def act (p : Pipeline σ) (a : Action) (s : RunState σ) : RunState σ :=
  if s.failure.isSome then s
  else
    match a with
    | .take => p.take s
    | .fetch worker => fetch worker s
    | .deliver worker => p.deliver worker s
    | .process => p.process s
    | .note => p.note s
    | .send => p.send s
    | .receive => p.receive s
    | .tick => p.tick s
    | .write => write s

def actAll (p : Pipeline σ) (actions : List Action) (s : RunState σ) : RunState σ :=
  actions.foldl (fun s a => p.act a s) s

/-- Brings everything to its end, the last stages first, in at most `turns`
turns. -/
def settleIn (p : Pipeline σ) : (turns : Nat) → RunState σ → RunState σ
  | 0, s => s
  | turns + 1, s =>
    match s.nextAction? with
    | some a => if s.failure.isSome then s else settleIn p turns (p.act a s)
    | none => s

def settle (p : Pipeline σ) (s : RunState σ) : RunState σ :=
  p.settleIn p.client.patience s

/-! The enqueuer's turns -/

/-- The others' turns before a call of the enqueuer: the next part of the
schedule. -/
def before (p : Pipeline σ) (s : RunState σ) : RunState σ :=
  match s.schedule with
  | turns :: schedule => p.actAll turns { s with schedule }
  | [] => s

/-- The others' turns while the enqueuer waits. Without a schedule they come to
the end of what is under way. -/
def meanwhile (p : Pipeline σ) (s : RunState σ) : RunState σ :=
  if s.schedule.isEmpty then p.settle s else s

def pause (p : Pipeline σ) (span : Span) : Unending (RunState σ) Unit := do
  modify p.meanwhile
  (p.client.pause span).onPart (·.world) fun world s => { s with world }

/-- Puts a request into the queue if there is room. -/
def offer (r : Request) (s : RunState σ) : Bool × RunState σ :=
  if s.requests.size < requestCapacity then
    (true, { s with requests := s.requests.push r, pushed := s.pushed ++ [r] })
  else (false, s)

/-- Pushes a request, in at most `rounds` rounds of waiting for room. -/
def push (p : Pipeline σ) (r : Request) : (rounds : Nat) → Unending (RunState σ) Bool
  | 0 => Unending.never
  | rounds + 1 => do
    if ← modifyGet (offer r) then return true
    else do
      modify p.meanwhile
      push p r rounds

def queue (p : Pipeline σ) : RequestQueue (RunState σ) where
  capacity := requestCapacity
  push r := p.push r p.client.patience
  waiting := do return (← get).requests.size
  closed := return false

def enqueuer (p : Pipeline σ) : Enqueuer (RunState σ) :=
  { config := p.config
    client := {
      node := p.client.node.onPart (·.world) fun world s => { s with world }
      retry := p.client.retry
      pause := p.pause
      patience := p.client.patience }
    store := p.store.onPart (·.world) fun world s => { s with world }
    queue := p.queue
    fileText := p.fileText }

/-- The calls of the enqueuer, with the others' turns before each of them. It is
dropped as soon as the writer has failed. -/
def drive (p : Pipeline σ) : Unending (RunState σ) α → StateM (RunState σ) (Option α)
  | .done a => return some a
  | .never => return none
  | .call rest effect => fun s =>
    let s := p.before s
    if s.failure.isSome then (none, s) else drive p (rest s) (effect s)

/-! Runs -/

/-- What is left to do once the enqueuer has ended: the rest of the schedule,
everything that is under way, and what the writer has collected. -/
def finish (p : Pipeline σ) (s : RunState σ) : RunState σ :=
  p.settle (p.act .tick (p.settle (p.actAll s.schedule.flatten { s with schedule := [] })))

/-- The result of a run that has come to its end. -/
def result (ended : Option (Except EnqueueError (List Request))) (s : RunState σ) :
    Option (Except PipelineError RunSummary) :=
  match s.failure with
  | some e => some (.error e)
  | none =>
    match ended, s.nextAction?, s.written? with
    | some (.ok requests), none, some written =>
      some (.ok { enqueued := requests.length, written })
    | some (.error e), none, some _ => some (.error (.enqueue e))
    | _, _, _ => none

/-- A run: the enqueuer, and everybody else as the schedule says. It has no
result if it was not patient enough. -/
def runState (p : Pipeline σ) (s : RunState σ) :
    Option (Except PipelineError RunSummary) × RunState σ :=
  let (ended, s) := p.drive p.enqueuer.runAll.outcome s
  let s := p.finish s
  (result ended s, s)

/-- A run in a world. -/
def run (p : Pipeline σ) (schedule : List (List Action)) :
    StateM σ (Option (Except PipelineError RunSummary)) := fun world =>
  let (result, s) := p.runState (.start world schedule)
  (result, s.world)

end Pipeline

end ChainIndex

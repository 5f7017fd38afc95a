/-
The result of a run does not depend on how it goes. How many workers there are, how
many batches the writer takes at once, which of them takes its turn when, and when
the timer ticks decide in which order the effects of a run come, and nothing else:
while the node is steady and the store never fails, the plan of a run is fixed before
it starts, and so is what comes of each of its requests. The node must give blocks of
the heights that it is asked for. Where two heights give the same one, the last of
them to be written stays.
-/
import ChainIndex.Proofs.Plan
import ChainIndex.Proofs.Trace

namespace ChainIndex

/-- What decides how fast a run goes. -/
structure Pace where
  workers : Nat
  batchSize : Nat
  batchTimeoutMillis : Nat

def Config.paced (c : Config) (pace : Pace) : Config :=
  { c with indexer := { c.indexer with
      rpcWorkers := pace.workers
      writerBatchSize := pace.batchSize
      writerBatchTimeoutMillis := pace.batchTimeoutMillis } }

namespace Setting

variable {ω : Type} {p : Setting ω} {c : Config} {pace : Pace} {r : Request}
  {es : List StoreEffect}

/-! ## The same at every pace -/

theorem Serves.unpaced {height : Int} {source : TxSource}
    (h : p.Serves (c.paced pace) height source) : p.Serves c height source := by
  cases h with
  | search found => exact .search found
  | blockBytes notFound ran => exact .blockBytes notFound ran

theorem Written.unpaced {w : WriteRequest} (h : p.Written (c.paced pace) w es) :
    p.Written c w es := by
  cases h with
  | transactions b => exact .transactions b
  | blockEvents b => exact .blockEvents b
  | unwritten fails noted => exact .unwritten fails noted

theorem EventJourney.unpaced {height : Int} {block : Block}
    (h : p.EventJourney (c.paced pace) height block es) : p.EventJourney c height block es := by
  cases h with
  | missing notRun noted => exact .missing notRun noted
  | failed ran refused noted => exact .failed ran refused noted
  | handled ran batch written => exact .handled ran batch written.unpaced

theorem TxJourney.unpaced {height : Int} {block : Block}
    (h : p.TxJourney (c.paced pace) height block es) : p.TxJourney c height block es := by
  cases h with
  | missing notFound notRun noted => exact .missing notFound notRun noted
  | complete served whole => exact .complete (Serves.unpaced served) whole
  | incomplete served partly noted => exact .incomplete (Serves.unpaced served) partly noted

theorem Journey.unpaced (h : p.Journey (c.paced pace) r es) : p.Journey c r es := by
  cases h with
  | noBlock refused txs events all => exact .noBlock refused txs events all
  | block found events txs all =>
    exact .block found (events.mono EventJourney.unpaced) (txs.mono TxJourney.unpaced) all

theorem wholePlan_paced (memory : MemoryStore) (reported : Except NodeError NodeStatus) :
    p.wholePlan (c.paced pace) memory reported = p.wholePlan c memory reported :=
  rfl

/-- At every pace a run that has come to its end has followed the same plan, and left
one journey for each request of it. -/
theorem journeys_of_run (steady : p.node.Steady) (honest : p.Honest) (sound : ¬p.CanFail)
    {memory : MemoryStore} (wf : memory.WellFormed)
    (whole : c.indexer.reindexMessageType.isEmpty = true) {reported : Except NodeError NodeStatus}
    (reports : p.Statuses reported) {outside : ω} {schedule : List (List Action)}
    {result : Except PipelineError RunSummary} {s : RunState (Site ω)}
    (run : (p.pipeline (c.paced pace)).runState (.start ⟨outside, memory, []⟩ schedule) =
      (some result, s)) :
    ∃ es, s.world.memory.contents = memory.contents.replay es ∧
      Shares (p.Journey c) (p.wholePlan c memory reported) es := by
  have constant : ∀ answer, p.Statuses answer → answer = reported := by
    rintro answer ⟨w, rfl⟩
    obtain ⟨w', rfl⟩ := reports
    exact steady.status w w'
  have pushed : s.pushed = p.wholePlan (c.paced pace) memory reported :=
    (pushed_of_run honest sound
      (pushes_runAll_steady (c := c.paced pace) honest sound wf constant whole) run).2 rfl
  obtain ⟨es, emits, journeys⟩ := journal_of_run honest run (alive_of_sound honest sound run)
  rw [pushed, wholePlan_paced] at journeys
  refine ⟨es, ?_, journeys.mono fun _ _ _ journey => journey.unpaced⟩
  rw [emits.1, contents_replay]

/-- **The result of a run does not depend on its pace or on its schedule.** Two runs
over the same memory that come to their ends leave the same index flags, transactions,
batches and failures, attempts included. -/
theorem contents_eq_of_runs (steady : p.node.Steady) (honest : p.Honest) (sound : ¬p.CanFail)
    {memory : MemoryStore} (wf : memory.WellFormed)
    (whole : c.indexer.reindexMessageType.isEmpty = true) (apart : p.HashesApart c)
    {pace pace' : Pace} {outside outside' : ω} {schedule schedule' : List (List Action)}
    {result result' : Except PipelineError RunSummary} {s s' : RunState (Site ω)}
    (run : (p.pipeline (c.paced pace)).runState (.start ⟨outside, memory, []⟩ schedule) =
      (some result, s))
    (run' : (p.pipeline (c.paced pace')).runState (.start ⟨outside', memory, []⟩ schedule') =
      (some result', s')) :
    s.world.memory.contents = s'.world.memory.contents := by
  have reports : p.Statuses _ := ⟨outside, rfl⟩
  obtain ⟨es, contents, journeys⟩ := journeys_of_run steady honest sound wf whole reports run
  obtain ⟨es', contents', journeys'⟩ := journeys_of_run steady honest sound wf whole reports run'
  have order : es.Perm es' := journeys.perm_of_unique journeys' fun _ _ _ _ h h' =>
    h.perm steady sound h'
  have left : ∀ e ∈ es, ∃ height kind, p.Leftover c height kind e := by
    intro e he
    obtain ⟨r, -, part, journey, mem⟩ := journeys.exists_share he
    exact ⟨r.height, journey.leftover sound mem⟩
  rw [contents, contents']
  refine Contents.replay_perm order (fun e he e' he' => ?_) _
  obtain ⟨height, kind, here⟩ := left e he
  obtain ⟨height', kind', here'⟩ := left e' he'
  exact here.compatible steady honest apart here'

/-- A node with three heights: the transaction of the first one has no result, the
second one is not served, and the third one is empty. -/
def unevenNode : Node Unit :=
  .fixed ⟨1, 3, false⟩
    (fun height =>
      if height = 1 then .ok Processor.smallBlock
      else if height = 2 then .error (.timeout "")
      else .ok ⟨height, "", ⟨0, 0⟩, "", []⟩)
    (fun _ => .ok .empty) fun _ => .error (.timeout "")

theorem blocks_unevenNode {height : Int} {block : Block}
    (found : (plain unevenNode).Blocks height (.ok block)) :
    block = if height = 1 then Processor.smallBlock else ⟨height, "", ⟨0, 0⟩, "", []⟩ := by
  obtain ⟨w, answered⟩ := found
  change (if height = 1 then (.ok Processor.smallBlock : Except NodeError Block)
    else if height = 2 then .error (.timeout "")
    else .ok ⟨height, "", ⟨0, 0⟩, "", []⟩) = .ok block at answered
  split at answered
  · next first =>
    cases answered
    exact (if_pos first).symm
  · next later =>
    split at answered
    · cases answered
    · cases answered
      exact (if_neg later).symm

theorem height_unevenNode {height : Int} {block : Block}
    (found : (plain unevenNode).Blocks height (.ok block)) : block.height = height := by
  rw [blocks_unevenNode found]
  split
  · next first => exact first.symm
  · rfl

/-- A run up to a height over an empty memory. -/
def runTo (endBlock : Int) (node : Node Unit) (pace : Pace) (schedule : List (List Action)) :
    Option (Except PipelineError RunSummary) × RunState (Site Unit) :=
  ((plain node).pipeline ((Config.plain endBlock).paced pace)).runState
    (.start ⟨(), .empty, []⟩ schedule)

/-- One worker, and every batch is written by itself. -/
def slowPace : Pace := ⟨1, 1, 500⟩

/-- Three workers, and batches wait for others. -/
def fastPace : Pace := ⟨3, 8, 10⟩

/-- The height that was taken third is written first. -/
def lastFirst : List (List Action) :=
  [[], [], [], [], [], [.take, .take, .take, .fetch 2, .fetch 2, .fetch 2, .fetch 2, .deliver 2,
    .process, .send, .send, .receive, .receive, .tick, .write, .write]]

theorem contents_eq_of_runs_unevenNode :
    (runTo 3 unevenNode slowPace []).2.world.journal.map (·.height) = [1, 1, 1, 2, 2, 3, 3] ∧
      (runTo 3 unevenNode fastPace lastFirst).2.world.journal.map (·.height) =
        [1, 2, 2, 3, 3, 1, 1] ∧
      (runTo 3 unevenNode slowPace []).2.world.memory.contents =
        (runTo 3 unevenNode fastPace lastFirst).2.world.memory.contents := by
  have ended : (runTo 3 unevenNode slowPace []).1 = some (.ok ⟨3, ⟨2, 0, 2, 0⟩⟩) := by
    decide +kernel
  have ended' : (runTo 3 unevenNode fastPace lastFirst).1 = some (.ok ⟨3, ⟨2, 0, 2, 0⟩⟩) := by
    decide +kernel
  have run : runTo 3 unevenNode slowPace [] = (some (.ok ⟨3, ⟨2, 0, 2, 0⟩⟩), _) :=
    Prod.ext ended rfl
  have run' : runTo 3 unevenNode fastPace lastFirst = (some (.ok ⟨3, ⟨2, 0, 2, 0⟩⟩), _) :=
    Prod.ext ended' rfl
  have first : ∀ height hash, (plain unevenNode).Occurs (.plain 3) height hash → height = 1 := by
    intro height hash occurs
    obtain ⟨block, found, listed⟩ := occurs.in_block rfl
    by_contra other
    rw [blocks_unevenNode found, if_neg other] at listed
    exact absurd listed List.not_mem_nil
  exact ⟨by decide +kernel, by decide +kernel,
    contents_eq_of_runs (Node.steady_fixed _ _ _ _) (fun _ _ => height_unevenNode)
      (plain_sound _) MemoryStore.wellFormed_empty rfl
      (fun _ _ _ h h' => (first _ _ h).trans (first _ _ h').symm) run run'⟩

/-- Two heights for which the node gives blocks of the same one. -/
def twistedNode : Node Unit :=
  .fixed ⟨1, 2, false⟩ (fun height => .ok ⟨2, if height = 1 then "A" else "B", ⟨0, 0⟩, "", []⟩)
    (fun _ => .ok .empty) fun _ => .error (.timeout "")

/-- The height that was taken second is written first. -/
def secondFirst : List (List Action) :=
  [[], [], [], [], [.take, .take, .fetch 1, .fetch 1, .fetch 1, .fetch 1, .deliver 1, .process,
    .send, .send, .receive, .receive, .tick, .write, .write]]

/-- If the node may give blocks of other heights than those it is asked for, then two
runs can leave different batches. -/
theorem runs_can_differ :
    ¬ ∀ (p : Setting Unit) (c : Config) (memory : MemoryStore), p.node.Steady → ¬p.CanFail →
      memory.WellFormed → c.indexer.reindexMessageType.isEmpty = true → p.HashesApart c →
      ∀ (pace pace' : Pace) (schedule schedule' : List (List Action))
        (result result' : Except PipelineError RunSummary) (s s' : RunState (Site Unit)),
        (p.pipeline (c.paced pace)).runState (.start ⟨(), memory, []⟩ schedule) =
          (some result, s) →
        (p.pipeline (c.paced pace')).runState (.start ⟨(), memory, []⟩ schedule') =
          (some result', s') →
        s.world.memory.contents = s'.world.memory.contents := by
  intro claim
  have ended : (runTo 2 twistedNode slowPace []).1 = some (.ok ⟨2, ⟨2, 0, 2, 0⟩⟩) := by
    decide +kernel
  have ended' : (runTo 2 twistedNode fastPace secondFirst).1 = some (.ok ⟨2, ⟨2, 0, 2, 0⟩⟩) := by
    decide +kernel
  have empty : ∀ height hash, ¬(plain twistedNode).Occurs (.plain 2) height hash := by
    intro height hash occurs
    obtain ⟨block, ⟨w, ⟨⟩⟩, listed⟩ := occurs.in_block rfl
    exact absurd listed List.not_mem_nil
  have same := claim (plain twistedNode) (.plain 2) .empty (Node.steady_fixed _ _ _ _)
    (plain_sound _) MemoryStore.wellFormed_empty rfl (fun _ _ _ h => absurd h (empty _ _))
    slowPace fastPace [] secondFirst _ _ _ _ (Prod.ext ended rfl) (Prod.ext ended' rfl)
  have last : (((runTo 2 twistedNode slowPace []).2.world.memory.contents.txBatches
      ("chain-1", 2)).map (·.blockHash)) = some "B" := by decide +kernel
  have last' : (((runTo 2 twistedNode fastPace secondFirst).2.world.memory.contents.txBatches
      ("chain-1", 2)).map (·.blockHash)) = some "A" := by decide +kernel
  have both : some "B" = some "A" := last.symm.trans ((congrArg (fun m : Contents =>
    (m.txBatches ("chain-1", 2)).map (·.blockHash)) same).trans last')
  exact absurd both (by decide)

end Setting

end ChainIndex

/-
A healthy run completes the index, and there is nothing left for the next one. If the
node answers everything that is due, transactions and events can all be handled and
the store never fails, then every journey indexes what was asked for and records no
failure. What was not asked for was indexed before, so at the end of the run every
height up to the tip is indexed, no failure up to the end is open, and the plan of
another run is empty, which is all that a run ever keeps to.
-/
import ChainIndex.Proofs.Answers
import ChainIndex.Proofs.NothingLost
import ChainIndex.Proofs.Plan

namespace ChainIndex

namespace StoreEffect

/-- The call wrote a batch. -/
def isWrite : StoreEffect → Bool
  | wroteTxs _ => true
  | wroteEvents _ => true
  | _ => false

theorem fails?_of_isWrite {e : StoreEffect} (h : e.isWrite = true) : e.fails? = none := by
  cases e <;> first | rfl | cases h

theorem isMissed_of_isWrite {e : StoreEffect} (h : e.isWrite = true) : e.isMissed = false := by
  cases e <;> first | rfl | cases h

end StoreEffect

namespace Setting

variable {ω : Type} {p : Setting ω} {c : Config} {latest : Int} {es : List StoreEffect}

/-- The heights that a run has to see to: those up to the tip and the end, and the
failed ones of a configured kind up to the end. -/
def Due (c : Config) (m : Contents) (latest : Int) (height : Int) : Prop :=
  c.indexer.start ≤ height ∧ height ≤ lastHeight c.indexer latest ∨
    c.indexer.pastEnd height = false ∧ ∃ kind, c.indexer.indexes kind = true ∧
      m.isUnresolved c.chain.chainId height kind = true

/-- Everything is in order for the heights that are due: whatever happens outside,
the node has them and always reports the same latest height, their transactions are
decoded and accepted, their events are normalized and dispatched, those of epochs too,
and no call of the store fails. -/
structure Healthy (p : Setting ω) (c : Config) (latest : Int) (due : Int → Prop) : Prop where
  honest : p.Honest
  status : ∀ answer, p.Statuses answer → ∃ s, answer = .ok s ∧ s.latest = latest
  block : ∀ height, due height → ∀ e, ¬p.Blocks height (.error e)
  results : ∀ height, due height → ∀ e, ¬p.Results height (.error e)
  txs : ∀ height, due height → ∀ b source, p.Blocks height (.ok b) → p.Serves c height source →
    ∀ decoded ∈ (p.processor c).decodeAll b source, ∃ tx handled, decoded = .ok tx ∧
      (p.processor c).handleMessages tx = .ok handled
  events : ∀ height, due height → ∀ b results, p.Blocks height (.ok b) →
    p.Results height (.ok results) → ∃ es data epoch,
      BlockEvents.ofResults c.indexer.base64Attributes results = .ok es ∧
      p.eventHandlers.dispatch b.height es = .ok data ∧
      (p.processor c).epochData b.height es = .ok epoch
  store : ¬p.CanFail

/-! ## Healthy journeys -/

/-- A batch of transactions all of which are accepted is complete. -/
theorem complete_of_accepted {pr : Processor} {b : Block} {source : TxSource}
    (accepted : ∀ decoded ∈ pr.decodeAll b source, ∃ tx handled, decoded = .ok tx ∧
      pr.handleMessages tx = .ok handled) : (pr.txBatch b source).isComplete = true := by
  have kept : ∀ o ∈ (pr.decodeAll b source).map pr.accept?, o.isNone = false := by
    intro o ho
    obtain ⟨decoded, hdecoded, rfl⟩ := List.mem_map.mp ho
    obtain ⟨tx, handled, rfl, accepts⟩ := accepted decoded hdecoded
    change (pr.handleMessages tx).toOption.isNone = false
    rw [accepts]
    rfl
  refine List.isEmpty_iff.mpr (List.map_eq_nil_iff.mpr (List.filter_eq_nil_iff.mpr fun o ho => ?_))
  rw [kept o.1 (List.fst_mem_of_mem_zipIdx ho)]
  exact nofun

theorem eventBatch_of_parts {pr : Processor} {b : Block} {results : BlockResults}
    {es : BlockEvents} {data epoch : List EventData}
    (normalized : BlockEvents.ofResults pr.config.indexer.base64Attributes results = .ok es)
    (dispatched : pr.eventHandlers.dispatch b.height es = .ok data)
    (begun : pr.epochData b.height es = .ok epoch) : ∃ batch, pr.eventBatch b results = .ok batch := by
  unfold Processor.eventBatch
  rw [mapError_bind_of_ok normalized, mapError_bind_of_ok dispatched, mapError_bind_of_ok begun]
  exact ⟨_, rfl⟩

variable {due : Int → Prop}

/-- What a healthy journey leaves is written batches. -/
theorem EventJourney.isWrite (healthy : p.Healthy c latest due) {height : Int} (hdue : due height)
    {block : Block} (found : p.Blocks height (.ok block)) (h : p.EventJourney c height block es) :
    ∀ e ∈ es, e.isWrite = true := by
  cases h with
  | missing notRun _ => exact absurd notRun (healthy.results height hdue _)
  | failed ran refused _ =>
    obtain ⟨es, data, epoch, normalized, dispatched, begun⟩ :=
      healthy.events height hdue block _ found ran
    obtain ⟨batch, handled⟩ : ∃ batch, (p.processor c).eventBatch block _ = .ok batch :=
      eventBatch_of_parts normalized dispatched begun
    rw [refused] at handled
    cases handled
  | handled _ _ written =>
    cases written with
    | blockEvents b =>
      intro e he
      obtain rfl := List.mem_singleton.mp he
      rfl
    | unwritten fails _ => exact absurd fails healthy.store

theorem TxJourney.isWrite (healthy : p.Healthy c latest due) {height : Int} (hdue : due height)
    {block : Block} (found : p.Blocks height (.ok block)) (h : p.TxJourney c height block es) :
    ∀ e ∈ es, e.isWrite = true := by
  cases h with
  | missing _ notRun _ => exact absurd notRun (healthy.results height hdue _)
  | complete _ _ =>
    intro e he
    obtain rfl := List.mem_singleton.mp he
    rfl
  | incomplete served partly _ =>
    rw [complete_of_accepted (healthy.txs height hdue block _ found served)] at partly
    cases partly

theorem Journey.isWrite (healthy : p.Healthy c latest due) {r : Request} (hdue : due r.height)
    (h : p.Journey c r es) : ∀ e ∈ es, e.isWrite = true := by
  cases h with
  | noBlock refused _ _ _ => exact absurd refused (healthy.block r.height hdue _)
  | block found events txs all =>
    intro e he
    rcases List.mem_append.mp (all.mem_iff.mp he) with he | he
    · exact (events.part_of_mem he).isWrite healthy hdue found e he
    · exact (txs.part_of_mem he).isWrite healthy hdue found e he

/-- A healthy journey indexes everything that was asked for. -/
theorem Journey.indexes (healthy : p.Healthy c latest due) {r : Request} (hdue : due r.height)
    (h : p.Journey c r es) {kind : DataKind} (asks : r.asks kind = true) :
    ∃ e ∈ es, e.indexes? = some (c.chain.chainId, r.height, kind) := by
  have writes := h.isWrite healthy hdue
  obtain ⟨e, he, indexes | fails⟩ :=
    h.settles healthy.honest (fun e he => StoreEffect.isMissed_of_isWrite (writes e he)) asks
  · exact ⟨e, he, indexes⟩
  · rw [StoreEffect.fails?_of_isWrite (writes e he)] at fails
    cases fails

/-! ## Healthy runs -/

/-- The plan of a run that follows the tip up to the latest height. -/
def tipPlan (c : Config) (m : MemoryStore) (latest : Int) : List Request :=
  retried c m ++ missingRequests c m (retried c m) c.indexer.start (lastHeight c.indexer latest)

theorem due_of_mem_tipPlan {m : MemoryStore} (wf : m.WellFormed) {r : Request}
    (hr : r ∈ tipPlan c m latest) : Due c m.contents latest r.height := by
  rcases List.mem_append.mp hr with hr | hr
  · exact .inr (failed_of_mem_retried wf hr)
  · exact .inl (height_of_mem_missingRequests hr)

/-- What a healthy run has pushed by its end is the plan. -/
theorem pushed_of_healthy {due : Int → Prop} (healthy : p.Healthy c latest due)
    (tip : c.indexer.reindexMessageType.isEmpty = true ∧ c.indexer.blockInputFile.isEmpty = true)
    {start : Site ω} {schedule : List (List Action)}
    {result : Option (Except PipelineError RunSummary)} {s : RunState (Site ω)}
    (run : (p.pipeline c).runState (.start start schedule) = (result, s))
    (wf : start.memory.WellFormed) :
    s.pushed <+: tipPlan c start.memory latest ∧
      (result.isSome = true → s.pushed = tipPlan c start.memory latest) := by
  have constant : ∀ answer, p.Statuses answer → answer.map (·.latest) = .ok latest := by
    intro answer answered
    obtain ⟨status, rfl, same⟩ := healthy.status answer answered
    exact congrArg Except.ok same
  have answers : c.indexer.waitForChain = true → ∀ e, ¬p.Statuses (.error e) := by
    intro _ e refused
    obtain ⟨_, impossible, -⟩ := healthy.status _ refused
    cases impossible
  exact pushed_of_run healthy.honest healthy.store
    (pushes_runAll_tip healthy.honest healthy.store wf constant tip answers) run

/-- What is not indexed up to the latest height is planned. -/
theorem exists_planned {m : MemoryStore} (wf : m.WellFormed) (fresh : c.indexer.reindex = false)
    {height : Int} {kind : DataKind} (configured : c.indexer.indexes kind = true)
    (above : c.indexer.start ≤ height) (below : height ≤ lastHeight c.indexer latest)
    (unindexed : m.contents.isIndexed c.chain.chainId height kind = false) :
    ∃ r ∈ tipPlan c m latest, r.height = height ∧ r.asks kind = true := by
  have lacks : m.contents.lacks c (retried c m) height kind =
      !isPending (retried c m) height kind := by
    simp [Contents.lacks, configured, fresh, unindexed]
  cases pending : isPending (retried c m) height kind with
  | true =>
    obtain ⟨r, hr, asks⟩ := exists_of_isPending pending
    exact ⟨r, List.mem_append_left _ hr, asks⟩
  | false =>
    rw [pending] at lacks
    obtain ⟨r, hr, asks⟩ := exists_missingRequest wf above below lacks
    exact ⟨r, List.mem_append_right _ hr, asks⟩

/-- If everything is indexed and no failure is open, nothing is planned. -/
theorem tipPlan_eq_nil {m : MemoryStore} (wf : m.WellFormed) (fresh : c.indexer.reindex = false)
    (whole : ∀ height kind, c.indexer.indexes kind = true → c.indexer.start ≤ height →
      height ≤ lastHeight c.indexer latest →
      m.contents.isIndexed c.chain.chainId height kind = true)
    (calm : ∀ height kind, c.indexer.indexes kind = true → c.indexer.pastEnd height = false →
      m.contents.isUnresolved c.chain.chainId height kind = false) :
    tipPlan c m latest = [] := by
  unfold tipPlan
  rw [retried_eq_nil wf calm, List.nil_append]
  refine missingRequests_eq_nil wf fun height kind above below => ?_
  unfold Contents.lacks
  cases configured : c.indexer.indexes kind with
  | false => rfl
  | true => simp [fresh, whole height kind configured above below]

/-- The effects of a healthy run that has come to its end index all of its plan, and
none of them records a failure. -/
theorem effects_of_healthy {memory : MemoryStore} (wf : memory.WellFormed)
    (tip : c.indexer.reindexMessageType.isEmpty = true ∧ c.indexer.blockInputFile.isEmpty = true)
    (healthy : p.Healthy c latest (Due c memory.contents latest)) {outside : ω}
    {schedule : List (List Action)} {result : Except PipelineError RunSummary}
    {s : RunState (Site ω)}
    (run : (p.pipeline c).runState (.start ⟨outside, memory, []⟩ schedule) = (some result, s)) :
    ∃ es, s.world.memory = replay es memory ∧
      (∀ r ∈ tipPlan c memory latest, ∀ kind, r.asks kind = true →
        ∃ e ∈ es, e.indexes? = some (c.chain.chainId, r.height, kind)) ∧
      ∀ e ∈ es, e.fails? = none := by
  have pushed := (pushed_of_healthy healthy tip run wf).2 rfl
  have alive := alive_of_sound healthy.honest healthy.store run
  obtain ⟨es, emits, journeys⟩ := journal_of_run healthy.honest run alive
  rw [pushed] at journeys
  refine ⟨es, emits.1, fun r hr kind asks => ?_, fun e he => ?_⟩
  · obtain ⟨part, journey, sub⟩ := journeys.share_of_mem hr
    obtain ⟨e, he, indexed⟩ := journey.indexes healthy (due_of_mem_tipPlan wf hr) asks
    exact ⟨e, sub he, indexed⟩
  · obtain ⟨r, hr, part, journey, mem⟩ := journeys.exists_share he
    exact StoreEffect.fails?_of_isWrite
      (journey.isWrite healthy (due_of_mem_tipPlan wf hr) e mem)

/-- A run that pushes nothing leaves the memory as it was. -/
theorem memory_of_pushed_nil (honest : p.Honest) {start : Site ω} {schedule : List (List Action)}
    {result : Option (Except PipelineError RunSummary)} {s : RunState (Site ω)}
    (run : (p.pipeline c).runState (.start start schedule) = (result, s)) (nothing : s.pushed = []) :
    s.world.memory = start.memory := by
  obtain ⟨es, emits, covered⟩ := (inScope_of_run honest run).journal
  rw [nothing] at covered
  exact eq_of_reached_nil ⟨es, emits.1, covered⟩

/-- **A healthy run completes the index, and the next one finds nothing to do.** At its
end every height up to the tip and the end is indexed for every configured kind, no
failure of a configured kind up to the end is open, and a run that follows at once,
however it goes, pushes nothing and leaves the memory alone. -/
theorem healthy_run_completes {memory : MemoryStore} (wf : memory.WellFormed)
    (tip : c.indexer.reindexMessageType.isEmpty = true ∧ c.indexer.blockInputFile.isEmpty = true)
    (again : c.indexer.reattemptFailedBlocks = true) (fresh : c.indexer.reindex = false)
    (healthy : p.Healthy c latest (Due c memory.contents latest)) {outside : ω}
    {schedule : List (List Action)} {summary : RunSummary} {s : RunState (Site ω)}
    (run : (p.pipeline c).runState (.start ⟨outside, memory, []⟩ schedule) =
      (some (.ok summary), s)) :
    (∀ height kind, c.indexer.indexes kind = true → c.indexer.start ≤ height →
      height ≤ lastHeight c.indexer latest →
      s.world.memory.contents.isIndexed c.chain.chainId height kind = true) ∧
    (∀ height kind, c.indexer.indexes kind = true → c.indexer.pastEnd height = false →
      s.world.memory.contents.isUnresolved c.chain.chainId height kind = false) ∧
    ∀ outside' schedule' result' s',
      (p.pipeline c).runState (.start ⟨outside', s.world.memory, []⟩ schedule') = (result', s') →
      s'.pushed = [] ∧ s'.world.memory = s.world.memory := by
  obtain ⟨es, replayed, indexes, calm⟩ := effects_of_healthy wf tip healthy run
  have contents : s.world.memory.contents = memory.contents.replay es := by
    rw [replayed, contents_replay]
  have whole : ∀ height kind, c.indexer.indexes kind = true → c.indexer.start ≤ height →
      height ≤ lastHeight c.indexer latest →
      s.world.memory.contents.isIndexed c.chain.chainId height kind = true := by
    intro height kind configured above below
    rw [contents, isIndexed_replay]
    cases indexed : memory.contents.isIndexed c.chain.chainId height kind with
    | true => exact .inl rfl
    | false =>
      obtain ⟨r, hr, rfl, asks⟩ := exists_planned wf fresh configured above below indexed
      exact .inr (indexes r hr kind asks)
  have settled : ∀ height kind, c.indexer.indexes kind = true →
      c.indexer.pastEnd height = false →
      s.world.memory.contents.isUnresolved c.chain.chainId height kind = false := by
    intro height kind configured inside
    rw [contents]
    by_contra open'
    have unfailed : ∀ e ∈ es, e.fails? ≠ some (c.chain.chainId, height, kind) := by
      intro e he
      rw [calm e he]
      exact nofun
    obtain ⟨failed, untouched⟩ := (isUnresolved_replay unfailed).mp ((Bool.not_eq_false _).mp open')
    obtain ⟨r, hr, rfl, asks⟩ := exists_retried wf again configured inside failed
    obtain ⟨e, he, indexed⟩ := indexes r (List.mem_append_left _ hr) kind asks
    exact untouched e he indexed
  refine ⟨whole, settled, fun outside' schedule' result' s' run' => ?_⟩
  have wf' : s.world.memory.WellFormed := replayed ▸ wf.replay es
  have nothing := (pushed_of_healthy healthy tip run' wf').1
  rw [tipPlan_eq_nil wf' fresh whole settled, List.prefix_nil] at nothing
  have same := memory_of_pushed_nil healthy.honest run' nothing
  exact ⟨nothing, same⟩

/-- A node with empty blocks that has come to height three. -/
def wholeNode : Node Unit :=
  .fixed ⟨1, 3, false⟩ (fun height => .ok ⟨height, "", ⟨0, 0⟩, "", []⟩) (fun _ => .ok .empty)
    fun _ => .error (.timeout "")

/-- Up to height three, and the failed heights again. -/
def retrying : Config :=
  { Config.plain 3 with indexer := { (Config.plain 3).indexer with reattemptFailedBlocks := true } }

/-- The transactions of the first height have failed, and the events of the second
are indexed. -/
def halfDone : MemoryStore :=
  replay [.recorded (retrying.failure 1 .transactions .missingTxs),
    .wroteEvents ⟨"chain-1", 2, "", ⟨0, 0⟩, [], [], false⟩] .empty

theorem healthy_wholeNode (due : Int → Prop) : (plain wholeNode).Healthy retrying 3 due where
  honest := by
    rintro height b ⟨w, answered⟩
    cases answered
    rfl
  status := by
    rintro answer ⟨w, rfl⟩
    exact ⟨_, rfl, rfl⟩
  block := by
    rintro height - e ⟨w, answered⟩
    cases answered
  results height _ e h := by
    obtain ⟨w, answered⟩ := h.once
    cases answered
  txs height _ b source found served := by
    obtain ⟨w, ⟨⟩⟩ := found
    cases served with
    | search searched =>
      rcases searched.once with ⟨-, impossible⟩ | ⟨impossible, -⟩ <;> cases impossible
    | blockBytes _ ran => exact fun decoded h => absurd h List.not_mem_nil
  events height _ b results found ran := by
    obtain ⟨w, answered⟩ := ran.once
    have empty : results = .empty := (Except.ok.inj answered).symm
    subst empty
    exact ⟨⟨[], []⟩, [], [], rfl, rfl, rfl⟩
  store := plain_sound _

/-- The failed transactions of the first height are fetched again by themselves. -/
def healthyRun : Option (Except PipelineError RunSummary) × RunState (Site Unit) :=
  ((plain wholeNode).pipeline retrying).runState
    (.start ⟨(), halfDone, []⟩ [[], [], [.take, .fetch 0], [.take, .fetch 0]])

theorem healthy_run_completes_healthyRun :
    healthyRun.1 = some (.ok ⟨4, ⟨3, 0, 2, 0⟩⟩) ∧
      healthyRun.2.pushed =
        [⟨1, false, true⟩, ⟨1, true, false⟩, ⟨2, false, true⟩, ⟨3, true, true⟩] ∧
      healthyRun.2.world.memory.contents.isIndexed "chain-1" 3 .transactions = true ∧
      healthyRun.2.world.memory.contents.isUnresolved "chain-1" 1 .transactions = false := by
  have ended : healthyRun.1 = some (.ok ⟨4, ⟨3, 0, 2, 0⟩⟩) := by decide +kernel
  have run : healthyRun = (some (.ok ⟨4, ⟨3, 0, 2, 0⟩⟩), healthyRun.2) := Prod.ext ended rfl
  obtain ⟨whole, settled, -⟩ := healthy_run_completes (MemoryStore.wellFormed_empty.replay _)
    ⟨rfl, rfl⟩ rfl rfl (healthy_wholeNode _) run
  exact ⟨ended, by decide +kernel, whole 3 .transactions rfl (by decide) (by decide),
    settled 1 .transactions rfl rfl⟩

end Setting

end ChainIndex

/-
No requested data is silently lost. Failures are noted by the workers, the
processor and the writer, and resolved by the writer alone, and one height may be
under way twice; still, at the end of a run without an error every kind of data
that was asked for is indexed or its failure is on record, whatever the node and
the store did and in whatever order turns were taken. The books of the run say
that each request has left a whole journey in the journal, every whole journey
settles what was asked for, and nothing that comes later unsettles it.
-/
import ChainIndex.Proofs.Ledger

namespace ChainIndex

namespace Setting

variable {ω : Type} {p : Setting ω} {c : Config} {es : List StoreEffect}

/-- No failure has gone unrecorded. -/
def AllRecorded (es : List StoreEffect) : Prop := ∀ e ∈ es, e.isMissed = false

theorem Noted.settles {r : FailureRecord} (h : p.Noted r es) (recorded : AllRecorded es) :
    ∃ e ∈ es, e.Settles r.chainId r.height r.kind := by
  rcases h with rfl | ⟨-, rfl⟩
  · exact ⟨_, List.mem_cons_self, .inr rfl⟩
  · cases recorded _ List.mem_cons_self

theorem EventJourney.settles {height : Int} {block : Block} (same : block.height = height)
    (h : p.EventJourney c height block es) (recorded : AllRecorded es) :
    ∃ e ∈ es, e.Settles c.chain.chainId height .blockEvents := by
  cases h with
  | missing _ noted => exact noted.settles recorded
  | failed _ _ noted => exact same ▸ noted.settles recorded
  | handled _ batch written =>
    obtain ⟨chain, batchHeight⟩ := Processor.eventBatch_ok batch
    cases written with
    | blockEvents b =>
      refine ⟨_, List.mem_cons_self, .inl ?_⟩
      rw [StoreEffect.indexes?, chain, batchHeight, same]
      rfl
    | unwritten _ noted =>
      rw [← same, ← batchHeight]
      exact noted.settles recorded

theorem TxJourney.settles {height : Int} {block : Block} (same : block.height = height)
    (h : p.TxJourney c height block es) (recorded : AllRecorded es) :
    ∃ e ∈ es, e.Settles c.chain.chainId height .transactions := by
  cases h with
  | missing _ _ noted => exact noted.settles recorded
  | complete _ whole =>
    refine ⟨_, List.mem_cons_self, .inl ?_⟩
    rw [StoreEffect.indexes?, if_pos whole, ← same]
    rfl
  | incomplete _ _ noted =>
    obtain ⟨e, he, settles⟩ :=
      noted.settles fun e he => recorded e (List.mem_append_left _ he)
    exact ⟨e, List.mem_append_left _ he, same ▸ settles⟩

/-- A whole journey settles every kind that was asked for. -/
theorem Journey.settles (honest : p.Honest) {r : Request} (h : p.Journey c r es)
    (recorded : AllRecorded es) {kind : DataKind} (asks : r.asks kind = true) :
    ∃ e ∈ es, e.Settles c.chain.chainId r.height kind := by
  have within {es' : List StoreEffect} (sub : es' ⊆ es) : AllRecorded es' :=
    fun e he => recorded e (sub he)
  cases h with
  | noBlock refused txs events all =>
    have left : _ ⊆ es := fun e he => all.mem_iff.mpr (List.mem_append_left _ he)
    have right : _ ⊆ es := fun e he => all.mem_iff.mpr (List.mem_append_right _ he)
    cases kind with
    | transactions =>
      obtain ⟨e, he, settles⟩ := txs.settles (within left)
      exact ⟨e, left he, settles⟩
    | blockEvents =>
      obtain ⟨e, he, settles⟩ := (events.part asks).settles (within right)
      exact ⟨e, right he, settles⟩
  | block found events txs all =>
    have same := honest _ _ found
    have left : _ ⊆ es := fun e he => all.mem_iff.mpr (List.mem_append_left _ he)
    have right : _ ⊆ es := fun e he => all.mem_iff.mpr (List.mem_append_right _ he)
    cases kind with
    | transactions =>
      obtain ⟨e, he, settles⟩ := (txs.part asks).settles same (within right)
      exact ⟨e, right he, settles⟩
    | blockEvents =>
      obtain ⟨e, he, settles⟩ := (events.part asks).settles same (within left)
      exact ⟨e, left he, settles⟩

/-- **Nothing that was asked for is lost.** After a run without an error in which
every failure could be recorded, each kind of data that a pushed request asked for
is indexed or on record as failed. -/
theorem run_settles_requests (honest : p.Honest) {outside : ω} {memory : MemoryStore}
    {schedule : List (List Action)} {summary : RunSummary} {s : RunState (Site ω)}
    (run : (p.pipeline c).runState (.start ⟨outside, memory, []⟩ schedule) = (some (.ok summary), s))
    (recorded : AllRecorded s.world.journal) :
    ∀ r ∈ s.pushed, ∀ kind, r.asks kind = true →
      s.world.memory.contents.IsSettled c.chain.chainId r.height kind := by
  intro r hr kind asks
  obtain ⟨ended, came⟩ := exists_result run
  have alive := alive_of_ok came
  obtain ⟨es, emits, journeys⟩ := journal_of_run honest run alive
  have journal : s.world.journal = es := emits.2
  obtain ⟨part, journey, sub⟩ := journeys.share_of_mem hr
  obtain ⟨e, he, settles⟩ :=
    journey.settles honest (fun e he => recorded e (journal ▸ sub he)) asks
  rw [emits.1, contents_replay]
  exact isSettled_replay (sub he) settles

/-- A node that has the second block but not the first. -/
def halfNode : Node Unit :=
  .fixed ⟨1, 2, false⟩
    (fun height => if height = 1 then .error (.timeout "") else .ok ⟨height, "", ⟨0, 0⟩, "", []⟩)
    (fun _ => .ok .empty) fun _ => .error (.timeout "")

/-- Both heights are under way at once, and the second one is fetched first. -/
def halfRun : Option (Except PipelineError RunSummary) × RunState (Site Unit) :=
  ((plain halfNode).pipeline (.plain 2)).runState
    (.start ⟨(), .empty, []⟩ [[], [], [], [], [.take, .take, .fetch 1, .fetch 0, .fetch 1]])

theorem run_settles_requests_halfRun :
    halfRun.1 = some (.ok ⟨2, ⟨1, 0, 1, 0⟩⟩) ∧ AllRecorded halfRun.2.world.journal ∧
      halfRun.2.world.memory.contents.IsSettled "chain-1" 1 .transactions := by
  have ended : halfRun.1 = some (.ok ⟨2, ⟨1, 0, 1, 0⟩⟩) := by decide +kernel
  have recorded : AllRecorded halfRun.2.world.journal := by
    unfold AllRecorded
    decide +kernel
  have honest : (plain halfNode).Honest := by
    rintro height b ⟨w, answered⟩
    change (if height = 1 then (.error (.timeout "") : Except NodeError Block)
      else .ok ⟨height, "", ⟨0, 0⟩, "", []⟩) = .ok b at answered
    split at answered
    · cases answered
    · cases answered
      rfl
  have run : halfRun = (some (.ok ⟨2, ⟨1, 0, 1, 0⟩⟩), halfRun.2) := Prod.ext ended rfl
  exact ⟨ended, recorded,
    run_settles_requests honest run recorded ⟨1, true, true⟩ (by decide +kernel) .transactions rfl⟩

end Setting

end ChainIndex

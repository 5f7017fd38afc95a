/-
What comes of the events of a block. They are read, the handlers for all blocks go over
them, and where the block opens the configured epoch the handlers of the epoch do as well. If
all of that goes well there is one batch and nothing is noted of the events. If some of it
does not, there is no batch and one failure is noted, with a reason of its own for the
handlers of an epoch, which come last. Filters select the events of the batch that are
stored; with any others the same data is found, or the same failure is noted.
-/
import ChainIndex.Proofs.FailureJournal
import ChainIndex.Proofs.FilterVerdict

namespace ChainIndex

/-! ## Filters -/

theorem EventFilter.keep_sublist (fs : List EventFilter) (es : List BlockEvent) :
    (EventFilter.keep fs es).Sublist es := by
  unfold keep
  split
  · exact List.Sublist.refl es
  · have kept : (((es.zip (marks fs es)).filter (·.2)).map Prod.fst).Sublist
        ((es.zip (marks fs es)).map Prod.fst) := List.filter_sublist.map Prod.fst
    rwa [List.map_fst_zip (length_marks fs es).ge] at kept

theorem BlockEvent.position_of_mem_number {position : BlockPosition} {es : List Event}
    {e : BlockEvent} (h : e ∈ number position es) : e.position = position := by
  obtain ⟨x, -, rfl⟩ := List.mem_map.mp h
  rfl

/-- Filters select from the events of a block. -/
theorem Filters.keepEvents_sublist (fs : Filters) (es : BlockEvents) :
    (fs.keepEvents es.records).Sublist es.records := by
  have begins : es.records.filter (·.position == .beginBlock) =
      BlockEvent.number .beginBlock es.begins := by
    rw [BlockEvents.records, List.filter_append, List.filter_eq_self.mpr, List.filter_eq_nil_iff.mpr,
      List.append_nil]
    · intro e he
      rw [BlockEvent.position_of_mem_number he]
      decide
    · intro e he
      rw [BlockEvent.position_of_mem_number he]
      rfl
  have ends : es.records.filter (·.position != .beginBlock) =
      BlockEvent.number .endBlock es.ends := by
    rw [BlockEvents.records, List.filter_append, List.filter_eq_nil_iff.mpr, List.nil_append,
      List.filter_eq_self.mpr]
    · intro e he
      rw [BlockEvent.position_of_mem_number he]
      rfl
    · intro e he
      rw [BlockEvent.position_of_mem_number he]
      decide
  rw [keepEvents, begins, ends]
  exact (EventFilter.keep_sublist _ _).append (EventFilter.keep_sublist _ _)

/-! ## Reading and handling -/

namespace Processor

variable {p : Processor} {block : Block} {results : BlockResults} {es : BlockEvents}

/-- The events of a block can be read as these, and the handlers for all blocks find this in
them. -/
def Finds (p : Processor) (block : Block) (results : BlockResults) (es : BlockEvents)
    (data : List EventData) : Prop :=
  BlockEvents.ofResults p.config.indexer.base64Attributes results = .ok es ∧
    p.eventHandlers.dispatch block.height es = .ok data

/-- The epoch is the configured one, and an event that begins the block opens it, by name or
without a name. -/
def Opens (p : Processor) (es : BlockEvents) (epoch : String) : Prop :=
  p.config.indexer.epochIdentifier = some epoch ∧ ∃ e ∈ es.begins,
    e.eventType = "epoch_start" ∧ ∀ id, e.attribute? "epoch_id" = some id → id = epoch

/-- The answer of the handlers of the epoch that is opened; without one nothing is found. -/
def EpochAnswers (p : Processor) (height : Int) (es : BlockEvents)
    (answer : Except EventHandlerError (List EventData)) : Prop :=
  (∃ epoch, p.Opens es epoch ∧ p.eventHandlers.dispatchEpoch epoch height es = answer) ∨
    (∀ epoch, ¬p.Opens es epoch) ∧ answer = .ok []

/-- All goes well but for the handlers of the epoch that is opened. -/
def LookupFails (p : Processor) (block : Block) (results : BlockResults) : Prop :=
  ∃ es data epoch e, p.Finds block results es data ∧ p.Opens es epoch ∧
    p.eventHandlers.dispatchEpoch epoch block.height es = .error e

theorem any_startsEpoch_iff {epoch : String} : es.begins.any (Event.startsEpoch epoch) = true ↔
    ∃ e ∈ es.begins, e.eventType = "epoch_start" ∧
      ∀ id, e.attribute? "epoch_id" = some id → id = epoch := by
  simp [List.any_eq_true, Event.startsEpoch, Option.all_eq_true]

theorem epochData_of_opens {epoch : String} (opens : p.Opens es epoch) (height : Int) :
    p.epochData height es = p.eventHandlers.dispatchEpoch epoch height es := by
  obtain ⟨configured, opened⟩ := opens
  rw [epochData, configured]
  exact if_pos (any_startsEpoch_iff.mpr opened)

theorem epochData_of_not_opens (none : ∀ epoch, ¬p.Opens es epoch) (height : Int) :
    p.epochData height es = .ok [] := by
  unfold epochData
  split
  · next epoch configured =>
    exact if_neg fun starts => none epoch ⟨configured, any_startsEpoch_iff.mp starts⟩
  · rfl

theorem epochData_eq_iff {height : Int} {answer : Except EventHandlerError (List EventData)} :
    p.epochData height es = answer ↔ p.EpochAnswers height es answer := by
  by_cases opened : ∃ epoch, p.Opens es epoch
  · obtain ⟨epoch, opens⟩ := opened
    rw [epochData_of_opens opens]
    constructor
    · intro answered
      exact .inl ⟨epoch, opens, answered⟩
    · rintro (⟨other, also, answered⟩ | ⟨none, -⟩)
      · obtain rfl : epoch = other := Option.some.inj (opens.1.symm.trans also.1)
        exact answered
      · exact absurd opens (none epoch)
  · have none := not_exists.mp opened
    rw [epochData_of_not_opens none]
    constructor
    · rintro rfl
      exact .inr ⟨none, rfl⟩
    · rintro (⟨epoch, opens, -⟩ | ⟨-, rfl⟩)
      · exact absurd opens (none epoch)
      · rfl

/-- The batch of what was found. -/
def batchOf (p : Processor) (block : Block) (es : BlockEvents) (data epoch : List EventData) :
    EventBatch where
  chainId := p.config.chain.chainId
  height := block.height
  blockHash := block.hash
  time := block.time
  events := p.filters.keepEvents es.records
  data := data ++ epoch
  hasEpochData := !epoch.isEmpty

theorem eventBatch_of_finds {data : List EventData} (finds : p.Finds block results es data) :
    p.eventBatch block results = do
      let epoch ← (p.epochData block.height es).mapError fun _ => .rewardLookup
      return p.batchOf block es data epoch := by
  rw [eventBatch, mapError_bind_of_ok finds.1, mapError_bind_of_ok finds.2]
  rfl

/-- Without anything found by the handlers for all blocks, those of an epoch are not asked. -/
theorem eventBatch_of_not_finds (nothing : ∀ es data, ¬p.Finds block results es data) :
    p.eventBatch block results = .error .eventHandling := by
  unfold eventBatch
  cases read : BlockEvents.ofResults p.config.indexer.base64Attributes results with
  | error e => exact mapError_bind_of_error rfl
  | ok es =>
    rw [mapError_bind_of_ok rfl]
    cases dispatched : p.eventHandlers.dispatch block.height es with
    | error e => exact mapError_bind_of_error rfl
    | ok data => exact absurd ⟨read, dispatched⟩ (nothing es data)

/-- What was found makes a batch if the handlers of the epoch answer. -/
theorem eventBatch_of_answers {data epoch : List EventData}
    (finds : p.Finds block results es data) (answers : p.EpochAnswers block.height es (.ok epoch)) :
    p.eventBatch block results = .ok (p.batchOf block es data epoch) := by
  rw [eventBatch_of_finds finds, mapError_bind_of_ok (epochData_eq_iff.mpr answers)]
  rfl

theorem eventBatch_of_lookupFails (fails : p.LookupFails block results) :
    p.eventBatch block results = .error .rewardLookup := by
  obtain ⟨es, data, epoch, e, finds, opens, refused⟩ := fails
  rw [eventBatch_of_finds finds]
  exact mapError_bind_of_error ((epochData_of_opens opens _).trans refused)

/-! ## The events of a height -/

/-- Processing a height hands on these batches of its events and notes these failures of
them, last of all; the rest is about its transactions. -/
def EventsComeTo (p : Processor) (d : FetchedBlock) (batches : List EventBatch)
    (reasons : List FailureReason) : Prop :=
  ∀ (σ : Type) (store : IndexStore σ) (s : σ) (told : List FailureRecord), ∃ requests s' noted,
    (p.process store.journaled d).run (s, told) =
      (requests ++ batches.map .blockEvents, s',
        told ++ (noted ++ reasons.map (p.config.failure d.block.height .blockEvents))) ∧
    (∀ r ∈ requests, ∃ b, r = .transactions b) ∧ ∀ record ∈ noted, record.kind = .transactions

theorem eventsComeTo_of_outcome {d : FetchedBlock} {batches : List EventBatch}
    {reasons : List FailureReason} (outcome : p.eventOutcome d.block d.results =
      ⟨reasons.map (.blockEvents, ·), batches.map .blockEvents⟩) :
    p.EventsComeTo d batches reasons := by
  intro σ store s told
  obtain ⟨s', ran⟩ := p.run_process_journaled store d s told
  obtain ⟨requests, records⟩ := p.txOutcome_kinds d.block d.txs p.config d.block.height
  refine ⟨_, s', _, ran.trans ?_, requests, records⟩
  rw [outcome, Outcome.records, Outcome.records, List.map_map]
  rfl

theorem eventsComeTo_batch {b : EventBatch} (txs : Fetched TxSource)
    (batch : p.eventBatch block results = .ok b) :
    p.EventsComeTo ⟨block, .got results, txs⟩ [b] [] :=
  eventsComeTo_of_outcome (by rw [eventOutcome, batch]; rfl)

theorem eventsComeTo_failure {reason : FailureReason} (txs : Fetched TxSource)
    (refused : p.eventBatch block results = .error reason) :
    p.EventsComeTo ⟨block, .got results, txs⟩ [] [reason] :=
  eventsComeTo_of_outcome (by rw [eventOutcome, refused]; rfl)

/-- **Block events give a batch or one failure.** There is a batch of what the handlers found,
with what those of the epoch found behind the rest, or one failure is noted: that of the
epoch exactly if all went well before its handlers refused. Both are settled before the
filters are looked at, which only select the events of the batch. -/
theorem events_give_batch_or_failure (p : Processor) (block : Block) (results : BlockResults)
    (txs : Fetched TxSource) :
    (∃ es data epoch, p.Finds block results es data ∧
      p.EpochAnswers block.height es (.ok epoch) ∧ ¬p.LookupFails block results ∧
      ∀ fs : Filters, (fs.keepEvents es.records).Sublist es.records ∧
        { p with filters := fs }.EventsComeTo ⟨block, .got results, txs⟩
          [{ chainId := p.config.chain.chainId
             height := block.height
             blockHash := block.hash
             time := block.time
             events := fs.keepEvents es.records
             data := data ++ epoch
             hasEpochData := !epoch.isEmpty }] []) ∨
    ∃ reason, (reason = .rewardLookup ∨ reason = .eventHandling) ∧
      (reason = .rewardLookup ↔ p.LookupFails block results) ∧
      ∀ fs : Filters,
        { p with filters := fs }.EventsComeTo ⟨block, .got results, txs⟩ [] [reason] := by
  by_cases found : ∃ es data, p.Finds block results es data
  · obtain ⟨es, data, finds⟩ := found
    cases answered : p.epochData block.height es with
    | ok epoch =>
      have answers := epochData_eq_iff.mp answered
      refine .inl ⟨es, data, epoch, finds, answers, fun fails => ?_, fun fs =>
        ⟨fs.keepEvents_sublist es, eventsComeTo_batch txs (eventBatch_of_answers finds answers)⟩⟩
      have batch := eventBatch_of_answers finds answers
      cases batch.symm.trans (eventBatch_of_lookupFails fails)
    | error e =>
      obtain ⟨epoch, opens, refused⟩ | ⟨-, impossible⟩ := epochData_eq_iff.mp answered
      · have fails : p.LookupFails block results := ⟨es, data, epoch, e, finds, opens, refused⟩
        exact .inr ⟨.rewardLookup, .inl rfl, ⟨fun _ => fails, fun _ => rfl⟩, fun fs =>
          eventsComeTo_failure txs (eventBatch_of_lookupFails fails)⟩
      · cases impossible
  · have nothing (es : BlockEvents) (data : List EventData) : ¬p.Finds block results es data :=
      fun finds => found ⟨es, data, finds⟩
    refine .inr ⟨.eventHandling, .inr rfl, ⟨fun impossible => ?_, fun fails => ?_⟩, fun fs =>
      eventsComeTo_failure txs (eventBatch_of_not_finds nothing)⟩
    · cases impossible
    · obtain ⟨es, data, -, -, finds, -⟩ := fails
      exact absurd finds (nothing es data)

end Processor

end ChainIndex

/-
What comes of a request. A request is fetched, what was fetched is processed, and
what comes out is written, with other requests in between; `Journey` says which
effects all of this can have had on the store by its end. Each kind that was asked
for has its own part of them: it is written or on record as failed, or both. Which
answers of the node lead where is part of the description.
-/
import ChainIndex.Proofs.Shares
import ChainIndex.Proofs.Site
import Mathlib.Algebra.Order.Group.Multiset
import Mathlib.Tactic.Abel

namespace ChainIndex

/-- The record of a failure of the configured chain. -/
def Config.failure (c : Config) (height : Int) (kind : DataKind) (reason : FailureReason) :
    FailureRecord :=
  { height, chainId := c.chain.chainId, chainName := c.chain.chainName, kind, reason }

/-- The events of a block are filed under its height. -/
theorem Processor.eventBatch_ok {p : Processor} {block : Block} {results : BlockResults}
    {b : EventBatch} (h : p.eventBatch block results = .ok b) :
    b.chainId = p.config.chain.chainId ∧ b.height = block.height := by
  obtain ⟨es, -, h⟩ := bind_eq_ok h
  obtain ⟨data, -, h⟩ := bind_eq_ok h
  obtain ⟨epoch, -, h⟩ := bind_eq_ok h
  cases h
  exact ⟨rfl, rfl⟩

namespace Setting

variable {ω : Type} (p : Setting ω) (c : Config)

/-! ## Answers -/

/-- The node can answer this when it is asked for a block. -/
def Blocks (height : Int) (answer : Except NodeError Block) : Prop :=
  ∃ w, ((p.node.block height).run.run w).1 = answer

/-- Asking for the results of a block can come to this. -/
def Results (height : Int) (answer : Except NodeError BlockResults) : Prop :=
  (p.client.blockResults height).outcome.Leaves [] answer

/-- Searching for the transactions of a height can come to this. -/
def Searches (height : Int) (answer : Option SearchAnswer) : Prop :=
  ((p.pipeline c).fetcher.search? height).Leaves [] answer

/-- The transactions of a height can come from here. -/
inductive Serves (height : Int) : TxSource → Prop
  | search {answer} (found : p.Searches c height (some answer)) : Serves height (.search answer)
  | blockBytes {results} (notFound : p.Searches c height none)
    (ran : p.Results height (.ok results)) : Serves height (.blockBytes results)

/-! ## Parts of a journey -/

/-- A failure was noted; it is on record unless the store failed. -/
def Noted (r : FailureRecord) (es : List StoreEffect) : Prop :=
  es = [.recorded r] ∨ p.CanFail ∧ es = [.missed r]

/-- The part of a kind that may not have been asked for. -/
def IfAsked (asked : Bool) (part : List StoreEffect → Prop) (es : List StoreEffect) : Prop :=
  if asked then part es else es = []

/-- What is left when a request to write has been seen to. -/
inductive Written : WriteRequest → List StoreEffect → Prop
  | transactions (b) : Written (.transactions b) [.wroteTxs b]
  | blockEvents (b) : Written (.blockEvents b) [.wroteEvents b]
  | unwritten {b es} (fails : p.CanFail)
    (noted : p.Noted (c.failure b.height .blockEvents (Writer.eventFailure b)) es) :
    Written (.blockEvents b) es

/-- What comes of the transactions of a height with this block. -/
inductive TxJourney (height : Int) (block : Block) : List StoreEffect → Prop
  | missing {e es} (notFound : p.Searches c height none) (notRun : p.Results height (.error e))
    (noted : p.Noted (c.failure height .transactions .missingTxs) es) : TxJourney height block es
  | complete {source} (served : p.Serves c height source)
    (whole : ((p.processor c).txBatch block source).isComplete = true) :
    TxJourney height block [.wroteTxs ((p.processor c).txBatch block source)]
  | incomplete {source es} (served : p.Serves c height source)
    (partly : ((p.processor c).txBatch block source).isComplete = false)
    (noted : p.Noted (c.failure block.height .transactions .unprocessableTx) es) :
    TxJourney height block (es ++ [.wroteTxs ((p.processor c).txBatch block source)])

/-- What comes of the events of a height with this block. -/
inductive EventJourney (height : Int) (block : Block) : List StoreEffect → Prop
  | missing {e es} (notRun : p.Results height (.error e))
    (noted : p.Noted (c.failure height .blockEvents .missingHistory) es) :
    EventJourney height block es
  | failed {results why es} (ran : p.Results height (.ok results))
    (refused : (p.processor c).eventBatch block results = .error why)
    (noted : p.Noted (c.failure block.height .blockEvents why) es) : EventJourney height block es
  | handled {results b es} (ran : p.Results height (.ok results))
    (batch : (p.processor c).eventBatch block results = .ok b)
    (written : p.Written c (.blockEvents b) es) : EventJourney height block es

/-- What comes of a request. Without a block its transactions are noted as failed
even if nobody asked for them. -/
inductive Journey (r : Request) : List StoreEffect → Prop
  | noBlock {e es fs gs} (refused : p.Blocks r.height (.error e))
    (txs : p.Noted (c.failure r.height .transactions .blockQuery) es)
    (events : IfAsked r.blockEvents (p.Noted (c.failure r.height .blockEvents .blockQuery)) fs)
    (all : gs.Perm (es ++ fs)) : Journey r gs
  | block {b es fs gs} (found : p.Blocks r.height (.ok b))
    (events : IfAsked r.blockEvents (p.EventJourney c r.height b) es)
    (txs : IfAsked r.transactions (p.TxJourney c r.height b) fs)
    (all : gs.Perm (es ++ fs)) : Journey r gs

/-! ## Parts of fetching -/

/-- What became of the results for the events of a height. -/
inductive EventsFetched (height : Int) : Fetched BlockResults → List StoreEffect → Prop
  | got {results} (ran : p.Results height (.ok results)) : EventsFetched height (.got results) []
  | failed {e es} (notRun : p.Results height (.error e))
    (noted : p.Noted (c.failure height .blockEvents .missingHistory) es) :
    EventsFetched height (.failed .missingHistory) es

/-- What became of the transactions of a height. -/
inductive TxsFetched (height : Int) : Fetched TxSource → List StoreEffect → Prop
  | got {source} (served : p.Serves c height source) : TxsFetched height (.got source) []
  | failed {e es} (notFound : p.Searches c height none) (notRun : p.Results height (.error e))
    (noted : p.Noted (c.failure height .transactions .missingTxs) es) :
    TxsFetched height (.failed .missingTxs) es

/-- What became of a kind of data that may not have been asked for. -/
def IfFetched {α : Type} (asked : Bool) (part : Fetched α → List StoreEffect → Prop)
    (fetched : Fetched α) (es : List StoreEffect) : Prop :=
  if asked then part fetched es else fetched = .notAsked ∧ es = []

/-- What fetching a request gives, and the failures that it notes. -/
inductive RequestFetched (r : Request) : Option FetchedBlock → List StoreEffect → Prop
  | noBlock {e es fs} (refused : p.Blocks r.height (.error e))
    (txs : p.Noted (c.failure r.height .transactions .blockQuery) es)
    (events : IfAsked r.blockEvents (p.Noted (c.failure r.height .blockEvents .blockQuery)) fs) :
    RequestFetched r none (es ++ fs)
  | block {d es fs} (found : p.Blocks r.height (.ok d.block))
    (events : IfFetched r.blockEvents (p.EventsFetched c r.height) d.results es)
    (txs : IfFetched r.transactions (p.TxsFetched c r.height) d.txs fs) :
    RequestFetched r (some d) (es ++ fs)

/-- A fetched height has been seen to: its failures are noted, and what came of
it is written. -/
def Handled (d : FetchedBlock) (gs : List StoreEffect) : Prop :=
  ∃ es fs,
    Shares (fun failure => p.Noted (c.failure d.block.height failure.1 failure.2))
      ((p.processor c).outcome d).failures es ∧
    Shares (p.Written c) ((p.processor c).outcome d).requests fs ∧ gs.Perm (es ++ fs)

/-- What was fetched, if anything, has been seen to. -/
def Followed : Option FetchedBlock → List StoreEffect → Prop
  | some d, es => p.Handled c d es
  | none, es => es = []

variable {p c} {es : List StoreEffect}

/-! ## Kinds that may not have been asked for -/

section

variable {asked : Bool} {J J' : List StoreEffect → Prop} {fs : List StoreEffect}

theorem IfAsked.part (h : IfAsked asked J es) (yes : asked = true) : J es := by
  subst yes
  exact h

theorem IfAsked.part_of_mem (h : IfAsked asked J es) {e : StoreEffect} (he : e ∈ es) : J es := by
  cases asked with
  | true => exact h
  | false =>
    cases h
    exact absurd he List.not_mem_nil

theorem IfAsked.mono (h : IfAsked asked J es) (imp : J es → J' es) : IfAsked asked J' es := by
  cases asked with
  | true => exact imp h
  | false => exact h

theorem IfAsked.eq (h : IfAsked asked J es) (h' : IfAsked asked J fs)
    (unique : J es → J fs → es = fs) : es = fs := by
  cases asked with
  | true => exact unique h h'
  | false => exact Eq.trans h (Eq.symm h')

end

/-! ## Noting and writing -/

theorem noted_of_leaves {height : Int} {kind : DataKind} {reason : FailureReason} {u : Unit}
    (h : (Unending.ofState (p.store.note c.chain height kind reason)).Leaves es u) :
    p.Noted (c.failure height kind reason) es := by
  obtain ⟨s, emits, -⟩ := Unending.leaves_ofState.mp h
  rcases emits_write (p.fault (.recordFailure (c.failure height kind reason)))
      [.recorded (c.failure height kind reason)] [.missed (c.failure height kind reason)] s with
    ⟨-, recorded⟩ | ⟨fault, -, missed⟩
  · exact .inl (emits.unique recorded)
  · exact .inr ⟨⟨_, _, fault⟩, emits.unique missed⟩

/-- A write has its effects or fails. -/
theorem leaves_call {call : StoreCall} {done : List StoreEffect} {o : Except StoreError Unit}
    {s : Site ω} (emits : Emits es s ((Site.write (p.fault call) done []).run.run s).2)
    (value : ((Site.write (p.fault call) done []).run.run s).1 = o) :
    o = .ok () ∧ es = done ∨ p.CanFail ∧ (∃ e, o = .error e) ∧ es = [] := by
  rcases emits_write (p.fault call) done [] s with ⟨ok, wrote⟩ | ⟨fault, failed, nothing⟩
  · exact .inl ⟨value.symm.trans ok, emits.unique wrote⟩
  · refine .inr ⟨⟨call, _, fault⟩, ?_, emits.unique nothing⟩
    cases o with
    | ok u => exact absurd value failed
    | error e => exact ⟨e, rfl⟩

/-- A write that is tried again has its effects once, or it fails at last. -/
theorem leaves_attempt {w : Writer (Site ω)} (quiet : ∀ span, (w.pause span).Always Quiet)
    {call : StoreCall} {done : List StoreEffect} {more : Nat} {o : Except StoreError Unit}
    (h : (w.attempt (Site.write (p.fault call) done []) more).outcome.Leaves es o) :
    o = .ok () ∧ es = done ∨ p.CanFail ∧ (∃ e, o = .error e) ∧ es = [] := by
  induction more generalizing es with
  | zero =>
    obtain ⟨s, emits, value⟩ := Task.leaves_ofCall.mp h
    exact leaves_call emits value
  | succ more ih =>
    rcases Task.leaves_bind.mp h with ⟨now, tried, later, first, rest, rfl⟩ | ⟨e, first, rfl⟩
    · obtain ⟨_, called, value⟩ := Task.leaves_ofUnending.mp first
      cases value
      obtain ⟨s, emits, value⟩ := Unending.leaves_ofState.mp called
      rcases leaves_call emits value with ⟨rfl, rfl⟩ | ⟨fails, ⟨e, rfl⟩, rfl⟩
      · obtain ⟨rfl, rfl⟩ := rest
        exact .inl ⟨rfl, List.append_nil _⟩
      · rcases Task.leaves_bind.mp rest with ⟨_, _, _, paused, again, rfl⟩ | ⟨e', paused, -⟩
        · obtain ⟨_, paused, -⟩ := Task.leaves_ofUnending.mp paused
          rw [paused.of_quiet (quiet _)]
          exact ih again
        · obtain ⟨_, _, value⟩ := Task.leaves_ofUnending.mp paused
          cases value
    · obtain ⟨_, _, value⟩ := Task.leaves_ofUnending.mp first
      cases value

theorem leaves_write {total : WriterSummary} {r : WriteRequest}
    {o : Except PipelineError WriterSummary}
    (h : ((p.pipeline c).writer.write total r).outcome.Leaves es o) :
    (∃ t, o = .ok t) ∧ p.Written c r es ∨ p.CanFail ∧ ∃ e, o = .error e := by
  have quiet : ∀ span, ((p.pipeline c).writer.pause span).Always Quiet := p.always_client.pause
  cases r with
  | transactions b =>
    rcases Task.leaves_bind.mp h with ⟨now, _, later, first, rest, rfl⟩ | ⟨e, first, rfl⟩
    · obtain ⟨rfl, rfl⟩ := rest
      obtain ⟨tried, first, value⟩ := Unending.leaves_map.mp first
      rcases leaves_attempt quiet first with ⟨rfl, rfl⟩ | ⟨fails, ⟨e, rfl⟩, rfl⟩
      · exact .inl ⟨⟨_, rfl⟩, .transactions b⟩
      · cases value
    · obtain ⟨tried, first, value⟩ := Unending.leaves_map.mp first
      rcases leaves_attempt quiet first with ⟨rfl, rfl⟩ | ⟨fails, -, -⟩
      · cases value
      · exact .inr ⟨fails, e, rfl⟩
  | blockEvents b =>
    rcases Task.leaves_bind.mp h with ⟨now, tried, later, first, rest, rfl⟩ | ⟨e, first, rfl⟩
    · obtain ⟨_, first, value⟩ := Task.leaves_ofUnending.mp first
      cases value
      rcases leaves_attempt quiet first with ⟨rfl, rfl⟩ | ⟨fails, ⟨e, rfl⟩, rfl⟩
      · obtain ⟨rfl, rfl⟩ := rest
        exact .inl ⟨⟨_, rfl⟩, .blockEvents b⟩
      · rcases Task.leaves_bind.mp rest with ⟨_, _, _, noted, counted, rfl⟩ | ⟨e', noted, -⟩
        · obtain ⟨rfl, rfl⟩ := counted
          obtain ⟨_, noted, -⟩ := Task.leaves_ofUnending.mp noted
          rw [List.append_nil]
          exact .inl ⟨⟨_, rfl⟩, .unwritten fails (noted_of_leaves noted)⟩
        · obtain ⟨_, _, value⟩ := Task.leaves_ofUnending.mp noted
          cases value
    · obtain ⟨_, _, value⟩ := Task.leaves_ofUnending.mp first
      cases value

/-- What waits is written, one request after another. -/
theorem leaves_writeAll {batch : List WriteRequest} {total : WriterSummary}
    {o : Except PipelineError WriterSummary}
    (h : (batch.foldlM (p.pipeline c).writer.write total).outcome.Leaves es o) :
    (∃ t, o = .ok t) ∧ Shares (p.Written c) batch es ∨ p.CanFail ∧ ∃ e, o = .error e := by
  induction batch generalizing total es with
  | nil =>
    obtain ⟨rfl, rfl⟩ := h
    exact .inl ⟨⟨_, rfl⟩, .nil⟩
  | cons r batch ih =>
    rw [List.foldlM_cons] at h
    rcases Task.leaves_bind.mp h with ⟨now, t, later, first, rest, rfl⟩ | ⟨e, first, rfl⟩
    · rcases leaves_write first with ⟨-, written⟩ | ⟨-, e, impossible⟩
      · rcases ih rest with ⟨ok, shares⟩ | failed
        · exact .inl ⟨ok, .cons written shares (List.Perm.refl _)⟩
        · exact .inr failed
      · cases impossible
    · rcases leaves_write first with ⟨⟨t, impossible⟩, -⟩ | ⟨fails, -⟩
      · cases impossible
      · exact .inr ⟨fails, e, rfl⟩

theorem leaves_flush {w : WriterState} {o : Except PipelineError WriterState}
    (h : ((p.pipeline c).writer.flush w).outcome.Leaves es o) :
    (∃ w', o = .ok w' ∧ w'.batch = []) ∧ Shares (p.Written c) w.batch es ∨
      p.CanFail ∧ ∃ e, o = .error e := by
  rcases Task.leaves_bind.mp h with ⟨now, t, later, first, rest, rfl⟩ | ⟨e, first, rfl⟩
  · obtain ⟨rfl, rfl⟩ := rest
    rw [List.append_nil]
    rcases leaves_writeAll first with ⟨-, shares⟩ | ⟨-, e, impossible⟩
    · exact .inl ⟨⟨_, rfl, rfl⟩, shares⟩
    · cases impossible
  · rcases leaves_writeAll first with ⟨⟨t, impossible⟩, -⟩ | ⟨fails, -⟩
    · cases impossible
    · exact .inr ⟨fails, e, rfl⟩

/-- A request that the writer takes waits with the others, or all of them are
written. -/
theorem leaves_receive {r : WriteRequest} {w : WriterState} {o : Except PipelineError WriterState}
    (h : ((p.pipeline c).writer.receive r w).outcome.Leaves es o) :
    (∃ w', o = .ok w' ∧ (w'.batch = w.batch ++ [r] ∧ es = [] ∨
        w'.batch = [] ∧ Shares (p.Written c) (w.batch ++ [r]) es)) ∨
      p.CanFail ∧ ∃ e, o = .error e := by
  unfold Writer.receive at h
  dsimp only at h
  split at h
  · obtain ⟨rfl, rfl⟩ := h
    exact .inl ⟨_, rfl, .inl ⟨rfl, rfl⟩⟩
  · rcases leaves_flush h with ⟨⟨w', rfl, empty⟩, shares⟩ | failed
    · exact .inl ⟨w', rfl, .inr ⟨empty, shares⟩⟩
    · exact .inr failed

/-! ## Fetching -/

theorem results_of_leaves {height : Int} {answer : Except NodeError BlockResults}
    (h : (p.client.blockResults height).outcome.Leaves es answer) :
    es = [] ∧ p.Results height answer := by
  obtain rfl := h.of_quiet (p.always_client.blockResults height)
  exact ⟨rfl, h⟩

theorem always_search (height : Int) :
    ((p.pipeline c).fetcher.search? height).Always Quiet := by
  unfold Fetcher.search?
  split
  · exact Unending.always_done _
  · exact Unending.always_bind (p.always_client.txsAt height) fun _ => Unending.always_done _

theorem searches_of_leaves {height : Int} {answer : Option SearchAnswer}
    (h : ((p.pipeline c).fetcher.search? height).Leaves es answer) :
    es = [] ∧ p.Searches c height answer := by
  obtain rfl := h.of_quiet (always_search height)
  exact ⟨rfl, h⟩

theorem leaves_results {height : Int} {fetched : Fetched BlockResults}
    (h : ((p.pipeline c).fetcher.results height).Leaves es fetched) :
    p.EventsFetched c height fetched es := by
  obtain ⟨_, answer, later, asked, rest, rfl⟩ := Unending.leaves_bind.mp h
  obtain ⟨rfl, answered⟩ := results_of_leaves asked
  cases answer with
  | ok results =>
    obtain ⟨rfl, rfl⟩ := rest
    exact .got answered
  | error e =>
    obtain ⟨noting, _, _, noted, ⟨rfl, rfl⟩, rfl⟩ := Unending.leaves_bind.mp rest
    rw [List.append_nil]
    exact .failed answered (noted_of_leaves noted)

theorem leaves_txs {height : Int} {results? : Option BlockResults} {fetched : Fetched TxSource}
    (atHand : ∀ results ∈ results?, p.Results height (.ok results))
    (h : ((p.pipeline c).fetcher.txs height results?).Leaves es fetched) :
    p.TxsFetched c height fetched es := by
  obtain ⟨_, found?, later, searched, rest, rfl⟩ := Unending.leaves_bind.mp h
  obtain ⟨rfl, searched⟩ := searches_of_leaves searched
  rcases found? with _ | answer
  · rcases results? with _ | results
    · obtain ⟨_, answer, _, asked, rest, rfl⟩ := Unending.leaves_bind.mp rest
      obtain ⟨rfl, answered⟩ := results_of_leaves asked
      cases answer with
      | ok results =>
        obtain ⟨rfl, rfl⟩ := rest
        exact .got (.blockBytes searched answered)
      | error e =>
        obtain ⟨noting, _, _, noted, ⟨rfl, rfl⟩, rfl⟩ := Unending.leaves_bind.mp rest
        rw [List.append_nil]
        exact .failed searched answered (noted_of_leaves noted)
    · obtain ⟨rfl, rfl⟩ := rest
      exact .got (.blockBytes searched (atHand results rfl))
  · obtain ⟨rfl, rfl⟩ := rest
    exact .got (.search searched)

theorem leaves_ifAsked {α : Type} {asked : Bool} {part : Fetched α → List StoreEffect → Prop}
    {x : Unending (Site ω) (Fetched α)} {fetched : Fetched α}
    (hx : asked = true → ∀ es, x.Leaves es fetched → part fetched es)
    (h : (Fetcher.ifAsked asked x).Leaves es fetched) : IfFetched asked part fetched es := by
  cases asked with
  | true => exact hx rfl es h
  | false =>
    obtain ⟨rfl, rfl⟩ := h
    exact ⟨rfl, rfl⟩

theorem leaves_block {height : Int} {answer : Except NodeError Block}
    (h : (Unending.ofState (p.client.node.block height).outcome).Leaves es answer) :
    es = [] ∧ p.Blocks height answer := by
  obtain ⟨s, emits, value⟩ := Unending.leaves_ofState.mp h
  exact ⟨emits.unique (p.always_client.node.block height s), s.outside, value⟩

theorem leaves_fetch {r : Request} {o : Option FetchedBlock}
    (h : ((p.pipeline c).fetcher.fetch r).Leaves es o) : p.RequestFetched c r o es := by
  obtain ⟨_, answer, later, asked, rest, rfl⟩ := Unending.leaves_bind.mp h
  obtain ⟨rfl, answered⟩ := leaves_block asked
  cases answer with
  | error e =>
    obtain ⟨_, _, _, notes, ⟨rfl, rfl⟩, rfl⟩ := Unending.leaves_bind.mp rest
    obtain ⟨_, _, _, txs, events, rfl⟩ := Unending.leaves_bind.mp notes
    rw [List.append_nil, List.nil_append]
    refine .noBlock answered (noted_of_leaves txs) ?_
    unfold IfAsked
    split
    · next asked =>
      rw [if_pos asked] at events
      exact noted_of_leaves events
    · next asked =>
      rw [if_neg asked] at events
      exact events.1
  | ok block =>
    obtain ⟨_, results, _, eventsLeft, more, rfl⟩ := Unending.leaves_bind.mp rest
    have events := leaves_ifAsked (fun _ _ => leaves_results) eventsLeft
    obtain ⟨_, txs, _, txsLeft, ⟨rfl, rfl⟩, rfl⟩ := Unending.leaves_bind.mp more
    rw [List.append_nil, List.nil_append]
    refine .block answered events (leaves_ifAsked (fun _ _ left => leaves_txs ?_ left) txsLeft)
    intro found atHand
    unfold IfFetched at events
    split at events
    · cases events with
      | got ran =>
        cases atHand
        exact ran
      | failed => cases atHand
    · obtain ⟨rfl, -⟩ := events
      cases atHand

/-! ## Processing -/

theorem eventJourney_of_processed {height : Int} {block : Block} {asked : Bool}
    {fetched : Fetched BlockResults} {ns ws : List StoreEffect}
    (events : IfFetched asked (p.EventsFetched c height) fetched es)
    (noted : Shares (fun failure => p.Noted (c.failure block.height failure.1 failure.2))
      ((p.processor c).eventOutcome block fetched).failures ns)
    (written : Shares (p.Written c) ((p.processor c).eventOutcome block fetched).requests ws) :
    ∃ part, IfAsked asked (p.EventJourney c height block) part ∧ (es ++ (ns ++ ws)).Perm part := by
  unfold IfFetched at events
  unfold IfAsked
  cases asked with
  | false =>
    obtain ⟨rfl, rfl⟩ := events
    cases noted
    cases written
    exact ⟨[], rfl, List.Perm.refl _⟩
  | true =>
    cases events with
    | failed notRun fetchNoted =>
      cases noted
      cases written
      exact ⟨_, .missing notRun fetchNoted, by simp⟩
    | got ran =>
      unfold Processor.eventOutcome at noted written
      dsimp only at noted written
      cases batch : (p.processor c).eventBatch block _ with
      | ok b =>
        rw [batch] at noted written
        cases noted
        obtain ⟨part, share, all⟩ := written.of_singleton
        exact ⟨part, .handled ran batch share, all⟩
      | error why =>
        rw [batch] at noted written
        cases written
        obtain ⟨part, share, all⟩ := noted.of_singleton
        refine ⟨part, .failed ran batch share, ?_⟩
        rwa [List.nil_append, List.append_nil]

theorem txJourney_of_processed {height : Int} {block : Block} {asked : Bool}
    {fetched : Fetched TxSource} {ns ws : List StoreEffect}
    (txs : IfFetched asked (p.TxsFetched c height) fetched es)
    (noted : Shares (fun failure => p.Noted (c.failure block.height failure.1 failure.2))
      ((p.processor c).txOutcome block fetched).failures ns)
    (written : Shares (p.Written c) ((p.processor c).txOutcome block fetched).requests ws) :
    ∃ part, IfAsked asked (p.TxJourney c height block) part ∧ (es ++ (ns ++ ws)).Perm part := by
  unfold IfFetched at txs
  unfold IfAsked
  cases asked with
  | false =>
    obtain ⟨rfl, rfl⟩ := txs
    cases noted
    cases written
    exact ⟨[], rfl, List.Perm.refl _⟩
  | true =>
    cases txs with
    | failed notFound notRun fetchNoted =>
      cases noted
      cases written
      exact ⟨_, .missing notFound notRun fetchNoted, by simp⟩
    | got served =>
      unfold Processor.txOutcome at noted written
      dsimp only at noted written
      obtain ⟨_, share, all⟩ := written.of_singleton
      cases share
      split at noted
      · next whole =>
        cases noted
        exact ⟨_, .complete served whole, all⟩
      · next partly =>
        obtain ⟨part, share, notes⟩ := noted.of_singleton
        exact ⟨_, .incomplete served ((Bool.not_eq_true _).mp partly) share, notes.append all⟩

/-- What comes of a request once it is fetched and what was fetched is seen to. -/
theorem journey_of_fetched {r : Request} {o : Option FetchedBlock} {fs gs : List StoreEffect}
    (fetched : p.RequestFetched c r o es)
    (followed : p.Followed c o fs) (all : gs.Perm (es ++ fs)) : p.Journey c r gs := by
  cases fetched with
  | noBlock refused txs events =>
    obtain rfl := followed
    exact .noBlock refused txs events (by rwa [List.append_nil] at all)
  | @block d es₁ es₂ found events txs =>
    obtain ⟨ns, ws, noted, written, parts⟩ := followed
    obtain ⟨txNotes, eventNotes, txNoted, eventNoted, notes⟩ := noted.of_append
    obtain ⟨txWrites, eventWrites, txWritten, eventWritten, writes⟩ := written.of_append
    obtain ⟨eventPart, eventJourney, eventAll⟩ :=
      eventJourney_of_processed events eventNoted eventWritten
    obtain ⟨txPart, txJourney, txAll⟩ := txJourney_of_processed txs txNoted txWritten
    refine .block found eventJourney txJourney ?_
    rw [← Multiset.coe_eq_coe] at all parts notes writes eventAll txAll ⊢
    simp only [← Multiset.coe_add] at all parts notes writes eventAll txAll ⊢
    rw [all, parts, notes, writes, ← eventAll, ← txAll]
    abel

end Setting

end ChainIndex

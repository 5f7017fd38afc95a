/-
What comes of fetching a request, and which failures the store is told of. There is nothing
exactly if the block cannot be had; then the transactions are noted as failed, and the events
if they were asked for. Otherwise each kind comes out on its own, and a failure is noted of
those kinds that failed and of no other, with the reason that the outcome gives. The
transactions have three sources, and fail only if every source that there is does.
-/
import ChainIndex.Proofs.FailureJournal

namespace ChainIndex

/-- The reason for which a kind of data failed, if it did. -/
def Fetched.reason? {α : Type} : Fetched α → Option FailureReason
  | .failed reason => some reason
  | _ => none

namespace Fetcher

variable {σ : Type}

/-! ## The journal of an outcome -/

/-- The fetcher with a journal of the failures that its store is told to record. -/
def journaled (f : Fetcher σ) : Fetcher (σ × List FailureRecord) where
  client := f.client.onPart Prod.fst fun s t => (s, t.2)
  store := f.store.journaled
  config := f.config

/-- One record if a kind has failed, with the reason, and none otherwise. -/
def recordsOf {α : Type} (f : Fetcher σ) (height : Int) (kind : DataKind) (fetched : Fetched α) :
    List FailureRecord :=
  (fetched.reason?.map (f.config.failure height kind)).toList

/-- The records that an outcome tells of. Without a block there is one for the transactions, and
one for the events if they were asked for. -/
def records (f : Fetcher σ) (r : Request) : Option FetchedBlock → List FailureRecord
  | none =>
    f.config.failure r.height .transactions .blockQuery ::
      if r.blockEvents then [f.config.failure r.height .blockEvents .blockQuery] else []
  | some d => f.recordsOf r.height .blockEvents d.results ++ f.recordsOf r.height .transactions d.txs

/-! ## What comes of a request -/

/-- The state after a failure was noted. -/
def noted (f : Fetcher σ) (height : Int) (kind : DataKind) (reason : FailureReason) (s : σ) : σ :=
  ((f.store.note f.config.chain height kind reason).run s).2

/-- Nothing comes of a search: it is off, or it fails. -/
inductive Unfound (f : Fetcher σ) (height : Int) : σ → σ → Prop
  | off {s} (skips : f.config.indexer.skipTxSearch = true) : Unfound f height s s
  | failed {s e s'} (searches : f.config.indexer.skipTxSearch = false)
    (tried : (f.client.txsAt height).outcome.Gives s (.error e) s') : Unfound f height s s'

/-- What comes of the results for the events of a height. -/
inductive ResultsOutcome (f : Fetcher σ) (height : Int) (s : σ) : Fetched BlockResults → σ → Prop
  | got {results s'} (ran : (f.client.blockResults height).outcome.Gives s (.ok results) s') :
    ResultsOutcome f height s (.got results) s'
  | failed {e s'} (tried : (f.client.blockResults height).outcome.Gives s (.error e) s') :
    ResultsOutcome f height s (.failed .missingHistory)
      (f.noted height .blockEvents .missingHistory s')

/-- What comes of the transactions of a height, with the results at hand: they come from a
search, or else from those results, or else from results that are asked for once more. -/
inductive TxsOutcome (f : Fetcher σ) (height : Int) :
    Option BlockResults → σ → Fetched TxSource → σ → Prop
  | found {atHand answer s s'} (searches : f.config.indexer.skipTxSearch = false)
    (tried : (f.client.txsAt height).outcome.Gives s (.ok answer) s') :
    TxsOutcome f height atHand s (.got (.search answer)) s'
  | atHand {results s s'} (unfound : f.Unfound height s s') :
    TxsOutcome f height (some results) s (.got (.blockBytes results)) s'
  | askedAgain {results s s₁ s'} (unfound : f.Unfound height s s₁)
    (ran : (f.client.blockResults height).outcome.Gives s₁ (.ok results) s') :
    TxsOutcome f height none s (.got (.blockBytes results)) s'
  | failed {e s s₁ s₂} (unfound : f.Unfound height s s₁)
    (tried : (f.client.blockResults height).outcome.Gives s₁ (.error e) s₂) :
    TxsOutcome f height none s (.failed .missingTxs) (f.noted height .transactions .missingTxs s₂)

/-- A kind that may not have been asked for. -/
def IfAskedFor {α : Type} (asked : Bool) (outcome : σ → Fetched α → σ → Prop) (s : σ)
    (fetched : Fetched α) (s' : σ) : Prop :=
  if asked then outcome s fetched s' else fetched = .notAsked ∧ s' = s

/-- The state after the failures of a request without a block were noted. -/
def notedNoBlock (f : Fetcher σ) (r : Request) (s : σ) : σ :=
  if r.blockEvents then
    f.noted r.height .blockEvents .blockQuery (f.noted r.height .transactions .blockQuery s)
  else f.noted r.height .transactions .blockQuery s

/-- What comes of a request, from one state to another. -/
inductive Outcome (f : Fetcher σ) (r : Request) (s : σ) : Option FetchedBlock → σ → Prop
  | noBlock {e s₁} (refused : (f.client.node.block r.height).run.run s = (.error e, s₁)) :
    Outcome f r s none (f.notedNoBlock r s₁)
  | block {d s₁ s₂ s'} (answered : (f.client.node.block r.height).run.run s = (.ok d.block, s₁))
    (events : IfAskedFor r.blockEvents (f.ResultsOutcome r.height) s₁ d.results s₂)
    (txs : IfAskedFor r.transactions (f.TxsOutcome r.height d.results.get?) s₂ d.txs s') :
    Outcome f r s (some d) s'

variable {f : Fetcher σ} {height : Int} {r : Request} {s : σ} {told : List FailureRecord}
  {t : σ × List FailureRecord}

/-! ## Fetching comes to this -/

theorem gives_blockResults_iff {answer : Except NodeError BlockResults} :
    (f.journaled.client.blockResults height).outcome.Gives (s, told) answer t ↔
      ∃ s', (f.client.blockResults height).outcome.Gives s answer s' ∧ t = (s', told) := by
  rw [← Unending.gives_beside_iff]
  exact iff_of_eq (congrArg (Unending.Gives · _ _ _) (f.client.isOnPart_blockResults height))

theorem gives_txsAt_iff {answer : Except NodeError SearchAnswer} :
    (f.journaled.client.txsAt height).outcome.Gives (s, told) answer t ↔
      ∃ s', (f.client.txsAt height).outcome.Gives s answer s' ∧ t = (s', told) := by
  rw [← Unending.gives_beside_iff]
  exact iff_of_eq (congrArg (Unending.Gives · _ _ _) (f.client.isOnPart_txsAt height))

theorem gives_note_iff {kind : DataKind} {reason : FailureReason} :
    (f.journaled.note height kind reason).Gives (s, told) () t ↔
      t = (f.noted height kind reason s, told ++ [f.config.failure height kind reason]) := by
  rw [note, Unending.gives_ofState_iff]
  exact ⟨fun ran => (congrArg Prod.snd ran).symm, fun same => same ▸ rfl⟩

theorem gives_results_iff {fetched : Fetched BlockResults} :
    (f.journaled.results height).Gives (s, told) fetched t ↔
      ∃ s', f.ResultsOutcome height s fetched s' ∧
        t = (s', told ++ f.recordsOf height .blockEvents fetched) := by
  rw [results, Unending.gives_bind_iff]
  constructor
  · rintro ⟨answer, _, asked, rest⟩
    obtain ⟨s₁, tried, rfl⟩ := gives_blockResults_iff.mp asked
    cases answer with
    | ok results =>
      obtain ⟨rfl, rfl⟩ := Unending.gives_done_iff.mp rest
      exact ⟨s₁, .got tried, by simp [recordsOf, Fetched.reason?]⟩
    | error e =>
      obtain ⟨_, _, noted, rest⟩ := Unending.gives_bind_iff.mp rest
      obtain ⟨rfl, rfl⟩ := Unending.gives_done_iff.mp rest
      exact ⟨_, .failed tried, gives_note_iff.mp noted⟩
  · rintro ⟨s', outcome, rfl⟩
    cases outcome with
    | got ran =>
      refine ⟨_, _, gives_blockResults_iff.mpr ⟨_, ran, rfl⟩, ?_⟩
      simp [recordsOf, Fetched.reason?, Unending.gives_done_iff]
    | failed tried =>
      exact ⟨_, _, gives_blockResults_iff.mpr ⟨_, tried, rfl⟩,
        (gives_note_iff.mpr rfl).bind (Unending.gives_done _ _)⟩

theorem gives_search_some_iff {answer : SearchAnswer} :
    (f.journaled.search? height).Gives (s, told) (some answer) t ↔
      ∃ s', f.config.indexer.skipTxSearch = false ∧
        (f.client.txsAt height).outcome.Gives s (.ok answer) s' ∧ t = (s', told) := by
  unfold search?
  split
  · next skips => simp [Unending.gives_done_iff, show f.config.indexer.skipTxSearch = true from skips]
  · next searches =>
    have searches : f.config.indexer.skipTxSearch = false := (Bool.not_eq_true _).mp searches
    simp only [searches, true_and, ← gives_txsAt_iff, Unending.gives_bind_iff]
    constructor
    · rintro ⟨tried, _, gives, rest⟩
      obtain ⟨same, rfl⟩ := Unending.gives_done_iff.mp rest
      cases tried with
      | ok found =>
        cases same
        exact gives
      | error e => cases same
    · intro gives
      exact ⟨_, _, gives, rfl⟩

theorem gives_search_none_iff :
    (f.journaled.search? height).Gives (s, told) none t ↔
      ∃ s', f.Unfound height s s' ∧ t = (s', told) := by
  unfold search?
  split
  · next skips =>
    rw [Unending.pure_def, Unending.gives_done_iff]
    constructor
    · rintro ⟨-, rfl⟩
      exact ⟨s, .off skips, rfl⟩
    · rintro ⟨s', unfound, rfl⟩
      cases unfound with
      | off => exact ⟨rfl, rfl⟩
      | failed searches => cases skips.symm.trans searches
  · next searches =>
    rw [Unending.gives_bind_iff]
    constructor
    · rintro ⟨answer, _, asked, rest⟩
      obtain ⟨same, rfl⟩ := Unending.gives_done_iff.mp rest
      obtain ⟨s', tried, rfl⟩ := gives_txsAt_iff.mp asked
      cases answer with
      | ok found => cases same
      | error e => exact ⟨s', .failed ((Bool.not_eq_true _).mp searches) tried, rfl⟩
    · rintro ⟨s', unfound, rfl⟩
      cases unfound with
      | off skips => exact absurd skips searches
      | failed _ tried => exact ⟨_, _, gives_txsAt_iff.mpr ⟨_, tried, rfl⟩, rfl⟩

theorem gives_txs_iff {atHand : Option BlockResults} {fetched : Fetched TxSource} :
    (f.journaled.txs height atHand).Gives (s, told) fetched t ↔
      ∃ s', f.TxsOutcome height atHand s fetched s' ∧
        t = (s', told ++ f.recordsOf height .transactions fetched) := by
  rw [txs, Unending.gives_bind_iff]
  constructor
  · rintro ⟨found?, _, searched, rest⟩
    cases found? with
    | some answer =>
      obtain ⟨s₁, searches, tried, rfl⟩ := gives_search_some_iff.mp searched
      obtain ⟨rfl, rfl⟩ := Unending.gives_done_iff.mp rest
      exact ⟨s₁, .found searches tried, by simp [recordsOf, Fetched.reason?]⟩
    | none =>
      obtain ⟨s₁, unfound, rfl⟩ := gives_search_none_iff.mp searched
      cases atHand with
      | some results =>
        obtain ⟨rfl, rfl⟩ := Unending.gives_done_iff.mp rest
        exact ⟨s₁, .atHand unfound, by simp [recordsOf, Fetched.reason?]⟩
      | none =>
        obtain ⟨answer, _, asked, rest⟩ := Unending.gives_bind_iff.mp rest
        obtain ⟨s₂, tried, rfl⟩ := gives_blockResults_iff.mp asked
        cases answer with
        | ok results =>
          obtain ⟨rfl, rfl⟩ := Unending.gives_done_iff.mp rest
          exact ⟨s₂, .askedAgain unfound tried, by simp [recordsOf, Fetched.reason?]⟩
        | error e =>
          obtain ⟨_, _, noted, rest⟩ := Unending.gives_bind_iff.mp rest
          obtain ⟨rfl, rfl⟩ := Unending.gives_done_iff.mp rest
          exact ⟨_, .failed unfound tried, gives_note_iff.mp noted⟩
  · rintro ⟨s', outcome, rfl⟩
    cases outcome with
    | found searches tried =>
      refine ⟨_, _, gives_search_some_iff.mpr ⟨_, searches, tried, rfl⟩, ?_⟩
      simp [recordsOf, Fetched.reason?, Unending.gives_done_iff]
    | atHand unfound =>
      refine ⟨_, _, gives_search_none_iff.mpr ⟨_, unfound, rfl⟩, ?_⟩
      simp [recordsOf, Fetched.reason?, Unending.gives_done_iff]
    | askedAgain unfound ran =>
      refine ⟨_, _, gives_search_none_iff.mpr ⟨_, unfound, rfl⟩,
        (gives_blockResults_iff.mpr ⟨_, ran, rfl⟩).bind ?_⟩
      simp [recordsOf, Fetched.reason?, Unending.gives_done_iff]
    | failed unfound tried =>
      exact ⟨_, _, gives_search_none_iff.mpr ⟨_, unfound, rfl⟩,
        (gives_blockResults_iff.mpr ⟨_, tried, rfl⟩).bind
          ((gives_note_iff.mpr rfl).bind (Unending.gives_done _ _))⟩

/-- What was not asked for is left out, and has no record. -/
theorem gives_ifAsked_iff {α : Type} {kind : DataKind} {asked : Bool}
    {part : Unending (σ × List FailureRecord) (Fetched α)} {outcome : σ → Fetched α → σ → Prop}
    {fetched : Fetched α} (gives : part.Gives (s, told) fetched t ↔
      ∃ s', outcome s fetched s' ∧ t = (s', told ++ f.recordsOf height kind fetched)) :
    (ifAsked asked part).Gives (s, told) fetched t ↔
      ∃ s', IfAskedFor asked outcome s fetched s' ∧
        t = (s', told ++ f.recordsOf height kind fetched) := by
  unfold ifAsked IfAskedFor
  cases asked with
  | true => exact gives
  | false =>
    rw [if_neg Bool.false_ne_true, Unending.pure_def, Unending.gives_done_iff]
    constructor
    · rintro ⟨rfl, rfl⟩
      exact ⟨s, ⟨rfl, rfl⟩, by simp [recordsOf, Fetched.reason?]⟩
    · rintro ⟨s', ⟨rfl, rfl⟩, rfl⟩
      exact ⟨rfl, by simp [recordsOf, Fetched.reason?]⟩

theorem gives_noteNoBlock_iff :
    (f.journaled.noteNoBlock r).Gives (s, told) () t ↔
      t = (f.notedNoBlock r s, told ++ f.records r none) := by
  rw [noteNoBlock, Unending.gives_bind_iff, notedNoBlock, records]
  constructor
  · rintro ⟨_, _, txs, events⟩
    obtain rfl := gives_note_iff.mp txs
    split at events
    · next asked =>
      rw [if_pos asked, if_pos asked, gives_note_iff.mp events, List.append_assoc]
      rfl
    · next unasked =>
      rw [if_neg unasked, if_neg unasked, (Unending.gives_done_iff.mp events).2]
  · rintro rfl
    refine ⟨(), _, gives_note_iff.mpr rfl, ?_⟩
    split
    · exact gives_note_iff.mpr (by rw [List.append_assoc]; rfl)
    · rfl

theorem gives_block_iff {answer : Except NodeError Block} :
    (Unending.ofState (f.journaled.client.node.block height).outcome).Gives (s, told) answer t ↔
      ∃ s', (f.client.node.block height).run.run s = (answer, s') ∧ t = (s', told) :=
  Unending.gives_beside_iff.trans
    (exists_congr fun _ => and_congr_left' Unending.gives_ofState_iff)

theorem gives_fetch_iff {o : Option FetchedBlock} :
    (f.journaled.fetch r).Gives (s, told) o t ↔
      ∃ s', f.Outcome r s o s' ∧ t = (s', told ++ f.records r o) := by
  rw [fetch, Unending.gives_bind_iff]
  constructor
  · rintro ⟨answer, _, asked, rest⟩
    obtain ⟨s₁, answered, rfl⟩ := gives_block_iff.mp asked
    cases answer with
    | error e =>
      obtain ⟨_, _, notes, rest⟩ := Unending.gives_bind_iff.mp rest
      obtain ⟨rfl, rfl⟩ := Unending.gives_done_iff.mp rest
      exact ⟨_, .noBlock answered, gives_noteNoBlock_iff.mp notes⟩
    | ok block =>
      obtain ⟨results, _, fetched, rest⟩ := Unending.gives_bind_iff.mp rest
      obtain ⟨s₂, events, rfl⟩ := (gives_ifAsked_iff gives_results_iff).mp fetched
      obtain ⟨txs, _, fetched, rest⟩ := Unending.gives_bind_iff.mp rest
      obtain ⟨s₃, transactions, rfl⟩ := (gives_ifAsked_iff gives_txs_iff).mp fetched
      obtain ⟨rfl, rfl⟩ := Unending.gives_done_iff.mp rest
      exact ⟨s₃, .block answered events transactions, by rw [List.append_assoc]; rfl⟩
  · rintro ⟨s', outcome, rfl⟩
    cases outcome with
    | noBlock refused =>
      exact ⟨_, _, gives_block_iff.mpr ⟨_, refused, rfl⟩,
        (gives_noteNoBlock_iff.mpr rfl).bind (Unending.gives_done _ _)⟩
    | block answered events txs =>
      refine ⟨_, _, gives_block_iff.mpr ⟨_, answered, rfl⟩,
        ((gives_ifAsked_iff gives_results_iff).mpr ⟨_, events, rfl⟩).bind
          (((gives_ifAsked_iff gives_txs_iff).mpr ⟨_, txs, rfl⟩).bind ?_)⟩
      rw [List.append_assoc]
      exact Unending.gives_done _ _

/-! ## Fetching comes to an end -/

section

variable (pauses : ∀ span, (f.client.pause span).Ends) (limited : 0 ≤ f.client.retry.maxAttempts)

include pauses limited

theorem ends_results (height : Int) : (f.results height).Ends := by
  refine (Client.ends_blockResults pauses limited height).bind fun answer => ?_
  cases answer with
  | ok results => exact Unending.ends_done _
  | error e => exact (Unending.ends_ofState _).bind fun _ => Unending.ends_done _

theorem ends_search (height : Int) : (f.search? height).Ends := by
  unfold search?
  split
  · exact Unending.ends_done _
  · exact (Client.ends_txsAt pauses limited height).bind fun _ => Unending.ends_done _

theorem ends_txs (height : Int) (atHand : Option BlockResults) : (f.txs height atHand).Ends := by
  refine (ends_search pauses limited height).bind fun found? => ?_
  cases found? with
  | some answer => exact Unending.ends_done _
  | none =>
    cases atHand with
    | some results => exact Unending.ends_done _
    | none =>
      refine (Client.ends_blockResults pauses limited height).bind fun answer => ?_
      cases answer with
      | ok results => exact Unending.ends_done _
      | error e => exact (Unending.ends_ofState _).bind fun _ => Unending.ends_done _

theorem ends_fetch (r : Request) : (f.fetch r).Ends := by
  refine (Unending.ends_ofState _).bind fun answer => ?_
  cases answer with
  | error e =>
    refine Unending.Ends.bind ((Unending.ends_ofState _).bind fun _ => ?_)
      fun _ => Unending.ends_done _
    split
    · exact Unending.ends_ofState _
    · exact Unending.ends_done _
  | ok block =>
    refine Unending.Ends.bind ?_ fun results => Unending.Ends.bind ?_ fun txs => Unending.ends_done _
    · unfold ifAsked
      split
      · exact ends_results pauses limited r.height
      · exact Unending.ends_done _
    · unfold ifAsked
      split
      · exact ends_txs pauses limited r.height _
      · exact Unending.ends_done _

end

/-- **Outcomes and records match.** Whatever the node answers and the store does, fetching a
request comes to what the answers lead to, and the store is told of exactly those failures that
the outcome tells of; and if tries are limited, every request comes to an outcome. -/
theorem fetch_matches_records (f : Fetcher σ) (r : Request) :
    (∀ s told o t, (f.journaled.fetch r).Gives (s, told) o t ↔
      ∃ s', f.Outcome r s o s' ∧ t = (s', told ++ f.records r o)) ∧
    ((∀ span, (f.client.pause span).Ends) → 0 ≤ f.client.retry.maxAttempts →
      (f.journaled.fetch r).Ends) := by
  refine ⟨fun s told o t => gives_fetch_iff, fun pauses limited => ?_⟩
  have pauses : ∀ span, (f.journaled.client.pause span).Ends := fun span => (pauses span).beside
  exact ends_fetch pauses limited r

/-- A fetcher at a node that has a block and no results of it, without a search. -/
def withoutResults : Fetcher (Site Unit) :=
  ((Setting.plain (.fixed ⟨1, 1, false⟩ (fun _ => .ok default) (fun _ => .error (.timeout ""))
    fun _ => .ok .empty)).pipeline (.plain 1)).fetcher

theorem fetch_matches_records_withoutResults :
    let r : Request := ⟨1, true, true⟩
    let before : Site Unit := ⟨(), .empty, []⟩
    (∀ span, (withoutResults.client.pause span).Ends) ∧
    0 ≤ withoutResults.client.retry.maxAttempts ∧ (withoutResults.journaled.fetch r).Ends ∧
    ∃ after, (withoutResults.journaled.fetch r).Gives (before, [])
      (some ⟨default, .failed .missingHistory, .failed .missingTxs⟩)
      (after, [(Config.plain 1).failure 1 .blockEvents .missingHistory,
        (Config.plain 1).failure 1 .transactions .missingTxs]) := by
  intro r before
  obtain ⟨matched, ends⟩ := fetch_matches_records withoutResults r
  have pauses : ∀ span, (withoutResults.client.pause span).Ends := fun _ => Unending.ends_done ()
  refine ⟨pauses, by decide, ends pauses (by decide), ?_⟩
  have outcome : withoutResults.Outcome r before
      (some ⟨default, .failed .missingHistory, .failed .missingTxs⟩) _ :=
    .block rfl (.failed rfl) (.failed (.off rfl) rfl)
  exact ⟨_, (matched before [] _ _).mpr ⟨_, outcome, rfl⟩⟩

end Fetcher

end ChainIndex

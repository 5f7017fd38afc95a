/-
What a request leaves at a steady node. If the store never fails, the answers of
the node decide what comes of a request: of each kind there is only one possible
trace, so any two journeys of a request leave the same in some order. Whatever
journeys leave, of one request or of two, may also come in any order, unless two
heights hold a transaction of the same hash.
-/
import ChainIndex.Proofs.Answers
import ChainIndex.Proofs.Commute
import ChainIndex.Proofs.CompleteBatch
import ChainIndex.Proofs.Scope

namespace ChainIndex

namespace Setting

variable {ω : Type} (p : Setting ω) (c : Config)

/-- The transactions of a height can come from here, or they cannot be had. -/
inductive Sources (height : Int) : Option TxSource → Prop
  | served {source} (h : p.Serves c height source) : Sources height (some source)
  | missing {e} (notFound : p.Searches c height none) (notRun : p.Results height (.error e)) :
    Sources height none

/-- A transaction of a height has this hash. -/
def Occurs (height : Int) (hash : String) : Prop :=
  ∃ block source, p.Blocks height (.ok block) ∧ p.Serves c height source ∧
    hash ∈ Processor.identifiers block source

/-- No hash occurs at two heights. -/
def HashesApart : Prop :=
  ∀ height height' hash, p.Occurs c height hash → p.Occurs c height' hash → height = height'

/-- What is left of the transactions of a block. -/
def txTrace (height : Int) (block : Block) : Option TxSource → List StoreEffect
  | none => [.recorded (c.failure height .transactions .missingTxs)]
  | some source =>
    let batch := (p.processor c).txBatch block source
    if batch.isComplete then [.wroteTxs batch]
    else [.recorded (c.failure block.height .transactions .unprocessableTx), .wroteTxs batch]

/-- What is left of the events of a block. -/
def eventTrace (height : Int) (block : Block) : Except NodeError BlockResults → List StoreEffect
  | .error _ => [.recorded (c.failure height .blockEvents .missingHistory)]
  | .ok results =>
    match (p.processor c).eventBatch block results with
    | .ok batch => [.wroteEvents batch]
    | .error why => [.recorded (c.failure block.height .blockEvents why)]

variable {p c} {height height' : Int} {block : Block} {es fs : List StoreEffect}

/-- Where nobody searches, the transactions of a height are those of its block. -/
theorem Occurs.in_block (skips : c.indexer.skipTxSearch = true) {hash : String}
    (h : p.Occurs c height hash) :
    ∃ block, p.Blocks height (.ok block) ∧ hash ∈ block.txs.map txHash := by
  obtain ⟨block, source, found, served, listed⟩ := h
  cases served with
  | search searched =>
    rcases searched.once with ⟨-, impossible⟩ | ⟨searches, -⟩
    · cases impossible
    · cases skips.symm.trans searches
  | blockBytes _ _ => exact ⟨block, found, listed⟩

/-! ## One answer -/

theorem blocks_unique (steady : p.node.Steady) {answer answer' : Except NodeError Block}
    (h : p.Blocks height answer) (h' : p.Blocks height answer') : answer = answer' := by
  obtain ⟨w, rfl⟩ := h
  obtain ⟨w', rfl⟩ := h'
  exact steady.block height w w'

theorem results_unique (steady : p.node.Steady) {answer answer' : Except NodeError BlockResults}
    (h : p.Results height answer) (h' : p.Results height answer') : answer = answer' :=
  resultsOnce_unique steady h.once h'.once

theorem searches_unique (steady : p.node.Steady) {answer answer' : Option SearchAnswer}
    (h : p.Searches c height answer) (h' : p.Searches c height answer') : answer = answer' := by
  rcases h.once with ⟨skips, rfl⟩ | ⟨searches, tried, once, rfl⟩ <;>
    rcases h'.once with ⟨skips', rfl⟩ | ⟨searches', tried', once', rfl⟩
  · rfl
  · cases skips.symm.trans searches'
  · cases searches.symm.trans skips'
  · rw [searchesOnce_unique steady once once']

theorem sources_unique (steady : p.node.Steady) {source source' : Option TxSource}
    (h : p.Sources c height source) (h' : p.Sources c height source') : source = source' := by
  have found {source : Option TxSource} (h : p.Sources c height source) :
      (∃ answer, p.Searches c height (some answer) ∧ source = some (.search answer)) ∨
        p.Searches c height none ∧ ∃ answer, p.Results height answer ∧
          source = answer.toOption.map .blockBytes := by
    cases h with
    | missing notFound notRun => exact .inr ⟨notFound, _, notRun, rfl⟩
    | served h =>
      cases h with
      | search found => exact .inl ⟨_, found, rfl⟩
      | blockBytes notFound ran => exact .inr ⟨notFound, _, ran, rfl⟩
  rcases found h with ⟨answer, here, rfl⟩ | ⟨nowhere, answer, ran, rfl⟩ <;>
    rcases found h' with ⟨answer', here', rfl⟩ | ⟨nowhere', answer', ran', rfl⟩
  · cases searches_unique steady here here'
    rfl
  · cases searches_unique steady here nowhere'
  · cases searches_unique steady nowhere here'
  · rw [results_unique steady ran ran']

/-! ## One trace -/

theorem Noted.eq_recorded (sound : ¬p.CanFail) {r : FailureRecord} (h : p.Noted r es) :
    es = [.recorded r] := by
  rcases h with noted | ⟨fails, -⟩
  · exact noted
  · exact absurd fails sound

theorem TxJourney.eq_trace (sound : ¬p.CanFail) (h : p.TxJourney c height block es) :
    ∃ source, p.Sources c height source ∧ es = p.txTrace c height block source := by
  cases h with
  | missing notFound notRun noted => exact ⟨none, .missing notFound notRun, noted.eq_recorded sound⟩
  | complete served whole =>
    refine ⟨some _, .served served, ?_⟩
    unfold txTrace
    exact (if_pos whole).symm
  | incomplete served partly noted =>
    refine ⟨some _, .served served, ?_⟩
    rw [noted.eq_recorded sound]
    unfold txTrace
    exact (if_neg ((Bool.not_eq_true _).mpr partly)).symm

theorem EventJourney.eq_trace (sound : ¬p.CanFail) (h : p.EventJourney c height block es) :
    ∃ answer, p.Results height answer ∧ es = p.eventTrace c height block answer := by
  cases h with
  | missing notRun noted => exact ⟨_, notRun, noted.eq_recorded sound⟩
  | failed ran refused noted =>
    refine ⟨_, ran, ?_⟩
    rw [noted.eq_recorded sound]
    unfold eventTrace
    dsimp only
    rw [refused]
  | handled ran batch written =>
    refine ⟨_, ran, ?_⟩
    unfold eventTrace
    dsimp only
    rw [batch]
    cases written with
    | blockEvents b => rfl
    | unwritten fails _ => exact absurd fails sound

/-- Any two journeys of a request leave the same in some order. -/
theorem Journey.perm (steady : p.node.Steady) (sound : ¬p.CanFail) {r : Request}
    (h : p.Journey c r es) (h' : p.Journey c r fs) : es.Perm fs := by
  have noted {r : FailureRecord} {es fs : List StoreEffect} (h : p.Noted r es)
      (h' : p.Noted r fs) : es = fs := (h.eq_recorded sound).trans (h'.eq_recorded sound).symm
  cases h with
  | noBlock refused txs events all =>
    cases h' with
    | noBlock _ txs' events' all' =>
      rw [noted txs txs', events.eq events' noted] at all
      exact all.trans all'.symm
    | block found _ _ _ => cases blocks_unique steady refused found
  | block found events txs all =>
    cases h' with
    | noBlock refused _ _ _ => cases blocks_unique steady found refused
    | block found' events' txs' all' =>
      cases blocks_unique steady found found'
      have sameEvents := events.eq events' fun h h' => by
        obtain ⟨answer, ran, rfl⟩ := h.eq_trace sound
        obtain ⟨answer', ran', rfl⟩ := h'.eq_trace sound
        rw [results_unique steady ran ran']
      have sameTxs := txs.eq txs' fun h h' => by
        obtain ⟨source, here, rfl⟩ := h.eq_trace sound
        obtain ⟨source', here', rfl⟩ := h'.eq_trace sound
        rw [sources_unique steady here here']
      rw [sameEvents, sameTxs] at all
      exact all.trans all'.symm

/-! ## Any order -/

/-- A journey of a height can leave this about a kind. -/
inductive Leftover (p : Setting ω) (c : Config) (height : Int) : DataKind → StoreEffect → Prop
  | noBlock {e} (refused : p.Blocks height (.error e)) (kind) :
    Leftover p c height kind (.recorded (c.failure height kind .blockQuery))
  | txs {block source e} (found : p.Blocks height (.ok block)) (here : p.Sources c height source)
    (left : e ∈ p.txTrace c height block source) : Leftover p c height .transactions e
  | events {block answer e} (found : p.Blocks height (.ok block)) (ran : p.Results height answer)
    (left : e ∈ p.eventTrace c height block answer) : Leftover p c height .blockEvents e

theorem Journey.leftover (sound : ¬p.CanFail) {r : Request} (h : p.Journey c r es)
    {e : StoreEffect} (he : e ∈ es) : ∃ kind, p.Leftover c r.height kind e := by
  cases h with
  | noBlock refused txs events all =>
    rcases List.mem_append.mp (all.mem_iff.mp he) with he | he
    · rw [txs.eq_recorded sound] at he
      cases List.mem_singleton.mp he
      exact ⟨_, .noBlock refused _⟩
    · rw [(events.part_of_mem he).eq_recorded sound] at he
      cases List.mem_singleton.mp he
      exact ⟨_, .noBlock refused _⟩
  | block found events txs all =>
    rcases List.mem_append.mp (all.mem_iff.mp he) with he | he
    · obtain ⟨answer, ran, rfl⟩ := (events.part_of_mem he).eq_trace sound
      exact ⟨_, .events found ran he⟩
    · obtain ⟨source, here, rfl⟩ := (txs.part_of_mem he).eq_trace sound
      exact ⟨_, .txs found here he⟩

theorem mem_txTrace (same : block.height = height) {source : Option TxSource} {e : StoreEffect}
    (h : e ∈ p.txTrace c height block source) :
    (∃ reason, e = .recorded (c.failure height .transactions reason)) ∨
      ∃ found, source = some found ∧ e = .wroteTxs ((p.processor c).txBatch block found) := by
  subst same
  cases source with
  | none =>
    cases List.mem_singleton.mp h
    exact .inl ⟨_, rfl⟩
  | some found =>
    unfold txTrace at h
    dsimp only at h
    split at h
    · cases List.mem_singleton.mp h
      exact .inr ⟨found, rfl, rfl⟩
    · rcases List.mem_pair.mp h with rfl | rfl
      · exact .inl ⟨_, rfl⟩
      · exact .inr ⟨found, rfl, rfl⟩

theorem mem_eventTrace (same : block.height = height) {answer : Except NodeError BlockResults}
    {e : StoreEffect} (h : e ∈ p.eventTrace c height block answer) :
    (∃ reason, e = .recorded (c.failure height .blockEvents reason)) ∨
      ∃ batch, batch.chainId = c.chain.chainId ∧ batch.height = height ∧ e = .wroteEvents batch := by
  subst same
  cases answer with
  | error _ =>
    cases List.mem_singleton.mp h
    exact .inl ⟨_, rfl⟩
  | ok results =>
    unfold eventTrace at h
    dsimp only at h
    split at h
    · next batch handled =>
      cases List.mem_singleton.mp h
      obtain ⟨chain, here⟩ := Processor.eventBatch_ok handled
      exact .inr ⟨batch, chain, here, rfl⟩
    · cases List.mem_singleton.mp h
      exact .inl ⟨_, rfl⟩

/-- The trace of the events is a single effect. -/
theorem exists_eventTrace (block : Block) (answer : Except NodeError BlockResults) :
    ∃ e, p.eventTrace c height block answer = [e] := by
  cases answer with
  | error _ => exact ⟨_, rfl⟩
  | ok results =>
    unfold eventTrace
    dsimp only
    split <;> exact ⟨_, rfl⟩

variable {kind kind' : DataKind} {e e' : StoreEffect}

theorem Leftover.key (honest : p.Honest) (h : p.Leftover c height kind e) :
    e.key = (c.chain.chainId, height, kind) := by
  cases h with
  | noBlock _ _ => rfl
  | txs found _ left =>
    have same := honest _ _ found
    rcases mem_txTrace same left with ⟨reason, rfl⟩ | ⟨source, -, rfl⟩
    · rfl
    · exact congrArg (fun at' => (c.chain.chainId, at', DataKind.transactions)) same
  | events found _ left =>
    rcases mem_eventTrace (honest _ _ found) left with ⟨reason, rfl⟩ | ⟨batch, chain, here, rfl⟩
    · rfl
    · exact congrArg₂ (fun chain at' => (chain, at', DataKind.blockEvents)) chain here

/-- Only what is left about transactions stores some, and they are of the height. -/
theorem Leftover.occurs (honest : p.Honest) (h : p.Leftover c height kind e) {tx : TxRecord}
    (htx : tx ∈ e.txs) : kind = .transactions ∧ p.Occurs c height tx.hash := by
  cases h with
  | noBlock _ _ => exact absurd htx List.not_mem_nil
  | events found _ left =>
    rcases mem_eventTrace (honest _ _ found) left with ⟨reason, rfl⟩ | ⟨batch, -, -, rfl⟩
    · exact absurd htx List.not_mem_nil
    · exact absurd htx List.not_mem_nil
  | txs found here left =>
    rcases mem_txTrace (honest _ _ found) left with ⟨reason, rfl⟩ | ⟨source, rfl, rfl⟩
    · exact absurd htx List.not_mem_nil
    · cases here with
      | served served => exact ⟨rfl, _, _, found, served, Processor.txBatch_hash htx⟩

theorem compatible_of_mem_txTrace {source : Option TxSource}
    (h : e ∈ p.txTrace c height block source) (h' : e' ∈ p.txTrace c height block source) :
    e.Compatible e' := by
  cases source with
  | none =>
    cases List.mem_singleton.mp h
    cases List.mem_singleton.mp h'
    exact .same _
  | some source =>
    unfold txTrace at h h'
    dsimp only at h h'
    split at h
    · next whole =>
      rw [if_pos whole] at h'
      cases List.mem_singleton.mp h
      cases List.mem_singleton.mp h'
      exact .same _
    · next partly =>
      rw [if_neg partly] at h'
      have partly := (Bool.not_eq_true _).mp partly
      rcases List.mem_pair.mp h with rfl | rfl <;> rcases List.mem_pair.mp h' with rfl | rfl
      · exact .same _
      · exact .incomplete partly
      · exact .incomplete' partly
      · exact .same _

theorem compatible_of_mem_eventTrace {answer : Except NodeError BlockResults}
    (h : e ∈ p.eventTrace c height block answer) (h' : e' ∈ p.eventTrace c height block answer) :
    e.Compatible e' := by
  obtain ⟨only, alone⟩ : ∃ only, p.eventTrace c height block answer = [only] :=
    exists_eventTrace _ _
  rw [alone] at h h'
  cases List.mem_singleton.mp h
  cases List.mem_singleton.mp h'
  exact .same _

/-- What two journeys leave about the same kind of the same height may come in any
order. -/
theorem Leftover.compatible_of_same (steady : p.node.Steady) (h : p.Leftover c height kind e)
    (h' : p.Leftover c height kind e') : e.Compatible e' := by
  cases h with
  | noBlock refused _ =>
    cases h' with
    | noBlock _ _ => exact .same _
    | txs found _ _ => cases blocks_unique steady refused found
    | events found _ _ => cases blocks_unique steady refused found
  | txs found here left =>
    cases h' with
    | noBlock refused _ => cases blocks_unique steady refused found
    | txs found' here' left' =>
      cases blocks_unique steady found found'
      cases sources_unique steady here here'
      exact compatible_of_mem_txTrace left left'
  | events found ran left =>
    cases h' with
    | noBlock refused _ => cases blocks_unique steady refused found
    | events found' ran' left' =>
      cases blocks_unique steady found found'
      cases results_unique steady ran ran'
      exact compatible_of_mem_eventTrace left left'

/-- Whatever journeys leave may come in any order if no two heights share a hash. -/
theorem Leftover.compatible (steady : p.node.Steady) (honest : p.Honest)
    (apart : p.HashesApart c)
    (h : p.Leftover c height kind e) (h' : p.Leftover c height' kind' e') : e.Compatible e' := by
  by_cases same : height = height' ∧ kind = kind'
  · obtain ⟨rfl, rfl⟩ := same
    exact h.compatible_of_same steady h'
  · refine .apart (fun keys => ?_) fun tx htx tx' htx' hashes => ?_
    · rw [h.key honest, h'.key honest] at keys
      obtain ⟨-, heights, kinds⟩ := Prod.ext_iff.mp keys |>.imp_right Prod.ext_iff.mp
      exact same ⟨heights, kinds⟩
    · obtain ⟨rfl, occurs⟩ := h.occurs honest htx
      obtain ⟨rfl, occurs'⟩ := h'.occurs honest htx'
      rw [hashes] at occurs
      exact same ⟨apart _ _ _ occurs occurs', rfl⟩

end Setting

end ChainIndex

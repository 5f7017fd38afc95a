/-
Which failures a store is told to record. The store may keep a journal of them in its
state, as it is told, whether it records them or fails to. It answers as before, and a
client does beside the journal what it does without, so the journal tells what any store is
told.
-/
import ChainIndex.Proofs.Alone
import ChainIndex.Proofs.Journey
import ChainIndex.Proofs.PageCalls

namespace ChainIndex

/-! ## Clients as parts of a larger state -/

variable {σ τ ε α : Type} {get : τ → σ} {put : σ → τ → τ}

namespace Node

theorem isOnPart_foldedResults (node : Node σ) (height : Int) :
    Task.IsOnPart get put (Task.ofCall id ((node.onPart get put).foldedResults height))
      (Task.ofCall id (node.foldedResults height)) := by
  have same : (node.onPart get put).foldedResults height =
      (node.foldedResults height).onPart get put := by
    funext t
    change ((node.onPart get put).foldedResults height).run.run t =
      (((node.foldedResults height).run.run (get t)).1,
        put ((node.foldedResults height).run.run (get t)).2 t)
    rw [foldedResults_run, foldedResults_run]
    rfl
  rw [same]
  exact Task.isOnPart_ofCall _

theorem isOnPart_morePages (node : Node σ) (height : Int) (total : Nat) (txs : List SearchTx)
    (results : List SearchResult) :
    Task.IsOnPart get put ((node.onPart get put).morePages height total txs results)
      (node.morePages height total txs results) := by
  induction txs, results using Node.morePages.induct total with
  | case1 txs results enough =>
    rw [morePages_of_enough enough, morePages_of_enough enough]
    rfl
  | case2 txs results few ih =>
    rw [morePages_of_few few, morePages_of_few few]
    refine (Task.isOnPart_ofCall (node.txPage height txs.length pageLimit)).bind fun page => ?_
    split
    · rfl
    · next some => exact ih page some

theorem isOnPart_txsAt (node : Node σ) (height : Int) :
    Task.IsOnPart get put ((node.onPart get put).txsAt height) (node.txsAt height) := by
  refine (Task.isOnPart_ofCall (node.txPage height 0 pageLimit)).bind fun first => ?_
  refine (node.isOnPart_morePages height _ _ _).bind fun pages => ?_
  dsimp only
  split <;> rfl

theorem ends_txsAt (node : Node σ) (height : Int) : (node.txsAt height).outcome.Ends := by
  refine Task.ends_bind (Task.ends_ofCall _) fun first => ?_
  refine Task.ends_bind (fun s => ?_) fun pages => ?_
  · obtain ⟨calls, r, s', gives, -, -⟩ :=
      node.morePages_gives height first.reportedTotal first.txs first.results s []
    exact ⟨r, s', gives⟩
  · dsimp only
    split <;> exact Unending.ends_done _

end Node

namespace RetryPolicy

/-- One try, and what comes after it. -/
theorem outcome_retryFrom (p : RetryPolicy) (pause : Span → Unending σ Unit) (task : Task σ ε α)
    (tries attempt : Nat) :
    (p.retryFrom pause task (tries + 1) attempt).outcome = task.outcome >>= fun
      | .ok a => .done (.ok a)
      | .error e =>
        if p.budget? = some (attempt + 1) then .done (.error e)
        else pause (Backoff.wait (min attempt maxAttempt) p.maxWait).1 >>= fun _ =>
          (p.retryFrom pause task tries (attempt + 1)).outcome := by
  rw [retryFrom, Task.outcome_ofUnending_bind]
  refine congrArg _ (funext fun tried => ?_)
  cases tried with
  | ok a => rfl
  | error e =>
    dsimp only
    split
    · rfl
    · exact Task.outcome_ofUnending_bind _ _

theorem isOnPart_retryFrom (p : RetryPolicy) {pause : Span → Unending σ Unit}
    {task' : Task τ ε α} {task : Task σ ε α} (same : Task.IsOnPart get put task' task)
    (tries attempt : Nat) :
    Task.IsOnPart get put
      (p.retryFrom (fun span => (pause span).onPart get put) task' tries attempt)
      (p.retryFrom pause task tries attempt) := by
  induction tries generalizing attempt with
  | zero => rfl
  | succ tries ih =>
    rw [Task.IsOnPart, outcome_retryFrom, outcome_retryFrom, Unending.onPart_bind, same]
    refine congrArg _ (funext fun tried => ?_)
    cases tried with
    | ok a => rfl
    | error e =>
      dsimp only
      split
      · rfl
      · rw [Unending.onPart_bind, ih]

/-- What goes well after some tries has gone well in one of them. -/
theorem exists_of_gives_retryFrom {p : RetryPolicy} {pause : Span → Unending σ Unit}
    {task : Task σ ε α} {tries attempt : Nat} {s s' : σ} {a : α}
    (gives : (p.retryFrom pause task tries attempt).outcome.Gives s (.ok a) s') :
    ∃ before after, task.outcome.Gives before (.ok a) after := by
  induction tries generalizing attempt s with
  | zero => cases gives
  | succ tries ih =>
    rw [outcome_retryFrom, Unending.gives_bind_iff] at gives
    obtain ⟨tried, between, ran, gives⟩ := gives
    cases tried with
    | ok b =>
      obtain ⟨same, -⟩ := Unending.gives_done_iff.mp gives
      exact ⟨s, between, same ▸ ran⟩
    | error e =>
      dsimp only at gives
      split at gives
      · obtain ⟨same, -⟩ := Unending.gives_done_iff.mp gives
        cases same
      · obtain ⟨_, _, -, gives⟩ := Unending.gives_bind_iff.mp gives
        exact ih gives

/-- With a budget there is a last try. -/
theorem ends_retryFrom {p : RetryPolicy} {pause : Span → Unending σ Unit} {task : Task σ ε α}
    (pauses : ∀ span, (pause span).Ends) (tried : task.outcome.Ends) {tries attempt : Nat}
    (budget : p.budget? = some (attempt + tries + 1)) :
    (p.retryFrom pause task (tries + 1) attempt).outcome.Ends := by
  induction tries generalizing attempt with
  | zero =>
    rw [outcome_retryFrom]
    refine tried.bind fun answer => ?_
    cases answer with
    | ok a => exact Unending.ends_done _
    | error e =>
      dsimp only
      rw [if_pos budget]
      exact Unending.ends_done _
  | succ tries ih =>
    rw [outcome_retryFrom]
    refine tried.bind fun answer => ?_
    cases answer with
    | ok a => exact Unending.ends_done _
    | error e =>
      dsimp only
      split
      · exact Unending.ends_done _
      · exact (pauses _).bind fun _ => ih (budget.trans (congrArg some (by omega)))

theorem ends_retry {p : RetryPolicy} {pause : Span → Unending σ Unit} {task : Task σ ε α}
    (pauses : ∀ span, (pause span).Ends) (tried : task.outcome.Ends) (limited : 0 ≤ p.maxAttempts)
    (patience : Nat) : (p.retry patience pause task).outcome.Ends := by
  have budget : p.budget? = some (max 1 p.maxAttempts.toNat) := if_neg (by omega)
  obtain ⟨tries, most⟩ : ∃ tries, max 1 p.maxAttempts.toNat = tries + 1 :=
    ⟨max 1 p.maxAttempts.toNat - 1, by omega⟩
  rw [retry, budget, Option.getD_some, most]
  exact ends_retryFrom pauses tried (by rw [budget, most, Nat.zero_add])

end RetryPolicy

namespace Client

/-- The client as a part of a larger state. -/
def onPart (get : τ → σ) (put : σ → τ → τ) (c : Client σ) : Client τ where
  node := c.node.onPart get put
  retry := c.retry
  pause span := (c.pause span).onPart get put
  patience := c.patience

theorem isOnPart_blockResults (c : Client σ) (height : Int) :
    Task.IsOnPart get put ((c.onPart get put).blockResults height) (c.blockResults height) :=
  c.retry.isOnPart_retryFrom (c.node.isOnPart_foldedResults height) _ 0

theorem isOnPart_txsAt (c : Client σ) (height : Int) :
    Task.IsOnPart get put ((c.onPart get put).txsAt height) (c.txsAt height) :=
  c.retry.isOnPart_retryFrom (c.node.isOnPart_txsAt height) _ 0

/-- No answer is waited for without end if tries are limited. -/
theorem ends_blockResults {c : Client σ} (pauses : ∀ span, (c.pause span).Ends)
    (limited : 0 ≤ c.retry.maxAttempts) (height : Int) : (c.blockResults height).outcome.Ends :=
  RetryPolicy.ends_retry pauses (Task.ends_ofCall _) limited _

theorem ends_txsAt {c : Client σ} (pauses : ∀ span, (c.pause span).Ends)
    (limited : 0 ≤ c.retry.maxAttempts) (height : Int) : (c.txsAt height).outcome.Ends :=
  RetryPolicy.ends_retry pauses (c.node.ends_txsAt height) limited _

end Client

/-! ## The journal -/

namespace IndexStore

/-- The store with a journal of the failures that it is told to record. -/
def journaled (store : IndexStore σ) : IndexStore (σ × List FailureRecord) :=
  { store.onPart Prod.fst fun s t => (s, t.2) with
    recordFailure := fun r => ExceptT.mk fun t =>
      let (answer, s) := (store.recordFailure r).run.run t.1
      (answer, s, t.2 ++ [r]) }

theorem run_note_journaled (store : IndexStore σ) (c : Config) (height : Int) (kind : DataKind)
    (reason : FailureReason) (s : σ) (told : List FailureRecord) :
    (store.journaled.note c.chain height kind reason).run (s, told) =
      ((), ((store.note c.chain height kind reason).run s).2,
        told ++ [c.failure height kind reason]) :=
  rfl

/-- What is noted one after another stands in the journal in that order. -/
theorem run_notes_journaled (store : IndexStore σ) (c : Config) (height : Int)
    (failures : List (DataKind × FailureReason)) (s : σ) (told : List FailureRecord) :
    ∃ s', (failures.forM fun (kind, reason) =>
        store.journaled.note c.chain height kind reason).run (s, told) =
      ((), s', told ++ failures.map fun (kind, reason) => c.failure height kind reason) := by
  induction failures generalizing s told with
  | nil => exact ⟨s, by rw [List.map_nil, List.append_nil]; rfl⟩
  | cons failure failures ih =>
    obtain ⟨kind, reason⟩ := failure
    obtain ⟨s', ran⟩ := ih ((store.note c.chain height kind reason).run s).2
      (told ++ [c.failure height kind reason])
    refine ⟨s', ?_⟩
    rw [List.forM_eq_forM, List.forM_cons, StateT.run_bind, run_note_journaled]
    exact ran.trans (by rw [List.append_assoc]; rfl)

end IndexStore

/-! ## Processing -/

/-- The records of the failures that come of a height. -/
def Processor.Outcome.records (o : Processor.Outcome) (c : Config) (height : Int) :
    List FailureRecord :=
  o.failures.map fun (kind, reason) => c.failure height kind reason

namespace Processor

/-- Processing hands on what comes of the transactions and then what comes of the events, and
tells the store of the failures of the ones and of the others. -/
theorem run_process_journaled (p : Processor) (store : IndexStore σ) (d : FetchedBlock)
    (s : σ) (told : List FailureRecord) :
    ∃ s', (p.process store.journaled d).run (s, told) =
      ((p.txOutcome d.block d.txs).requests ++ (p.eventOutcome d.block d.results).requests, s',
        told ++ ((p.txOutcome d.block d.txs).records p.config d.block.height ++
          (p.eventOutcome d.block d.results).records p.config d.block.height)) := by
  obtain ⟨s', noted⟩ := store.run_notes_journaled p.config d.block.height (p.outcome d).failures
    s told
  exact ⟨s', by rw [process, StateT.run_bind, noted, outcome, List.map_append]; rfl⟩

/-- What comes of the transactions of a height is not about its events. -/
theorem txOutcome_kinds (p : Processor) (block : Block) (txs : Fetched TxSource) (c : Config)
    (height : Int) :
    (∀ r ∈ (p.txOutcome block txs).requests, ∃ b, r = .transactions b) ∧
      ∀ record ∈ (p.txOutcome block txs).records c height, record.kind = .transactions := by
  cases txs with
  | got source =>
    rw [txOutcome, Outcome.records]
    cases (p.txBatch block source).isComplete with
    | true => simp
    | false => simp [Config.failure]
  | failed reason => simp [txOutcome, Outcome.records]
  | notAsked => simp [txOutcome, Outcome.records]

/-- What comes of the events of a height is not about its transactions. -/
theorem eventOutcome_kinds (p : Processor) (block : Block) (results : Fetched BlockResults)
    (c : Config) (height : Int) :
    (∀ r ∈ (p.eventOutcome block results).requests, ∃ b, r = .blockEvents b) ∧
      ∀ record ∈ (p.eventOutcome block results).records c height, record.kind = .blockEvents := by
  cases results with
  | got results =>
    rw [eventOutcome, Outcome.records]
    cases p.eventBatch block results with
    | ok batch => simp
    | error reason => simp [Config.failure]
  | failed reason => simp [eventOutcome, Outcome.records]
  | notAsked => simp [eventOutcome, Outcome.records]

end Processor

end ChainIndex
